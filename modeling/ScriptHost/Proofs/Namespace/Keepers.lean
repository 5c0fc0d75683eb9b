import ScriptHost.Proofs.Namespace.Building
import ScriptHost.Proofs.Script.Attempts

/-!
# The functions that keep a namespace

What the functions of the prelude do that stand behind read-only tables and environments, and the one that writes past
metatables.  Each of them comes to an answer, and what it leaves of the objects is said.

* **`refuse_comes`** — writing to a read-only table fails;
* **`traverse_comes`**, **`traverseStep_comes`**, **`measure_comes`** — traversing and measuring it;
* **`assign_comes`**, **`assign_refuses`**, `assign_fails` — writing to an environment;
* **`rawset_comes`**, **`rawset_refuses`**, **`rawset_protects`**, `rawset_fails` — writing past metatables.
-/

namespace ScriptHost

open ScriptHost.Script ScriptHost.Script.Machine

/-- The parameters of a function, argument by argument. -/
theorem Script.Machine.parameters_eq (args : Array Value) (count : Nat) :
    parameters args.toList count = (List.range count).map fun i => args.getD i .nil := by
  refine List.ext_getElem? fun i => ?_
  rw [parameters, List.getElem?_take, List.getElem?_map]
  split
  · rename_i hi
    rw [List.getElem?_range hi, List.getElem?_append, Option.map_some, Array.getD_eq_getD_getElem?, Array.getElem?_toList,
      Array.length_toList]
    split
    · rename_i hlt
      rw [Array.getElem?_eq_getElem hlt, Option.getD_some]
    · rename_i hle
      rw [Array.getElem?_eq_none (Nat.le_of_not_lt hle), List.getElem?_replicate, if_pos (by omega), Option.getD_none]
  · rename_i hi
    rw [List.getElem?_eq_none (by simpa using hi)]
    rfl

/-- The pair after a key of a table. -/
theorem Script.Library.next_eq {σ : Type} {h : Heap} {t : Nat} {k : Value} {s : σ} :
    Library.call .next #[.table t, k] h s = match (h.table t).next k with
      | none => .raised (.here (Bytes.ofString "invalid key to 'next'")) h s
      | some none => .done #[.nil] h s
      | some (some (k, v)) => .done #[k, v] h s := by
  have hfirst : Library.Args.at' #[.table t, k] 1 = .table t := rfl
  have hsecond : Library.Args.at' #[.table t, k] 2 = k := rfl
  simp only [Library.call, Library.baseNext, Library.Args.table, hfirst, hsecond, Act.readHeap, bind, pure, Outcome.andThen]
  cases (h.table t).next k with
  | none => rfl
  | some pair => cases pair <;> rfl

/-- A key that no table takes. -/
theorem Script.Act.rawSet_raised {σ : Type} {h : Heap} {t : Nat} {k v : Value} {s : σ} (hk : ¬ k.IsKey) :
    ∃ message, (Act.rawSet t k v : Act σ Unit) h s = .raised (.here message) h s := by
  cases k with
  | nil => exact ⟨_, rfl⟩
  | nan => exact ⟨_, rfl⟩
  | float x =>
    have hnan : x.isNaN = true := by simpa [Value.IsKey] using hk
    refine ⟨Bytes.ofString "table index is NaN", ?_⟩
    rw [Act.rawSet, if_pos hnan]
    rfl
  | _ => exact absurd trivial hk

theorem Script.Library.rawset_raised {σ : Type} {h : Heap} {t : Nat} {k v : Value} {s : σ} (hk : ¬ k.IsKey) :
    ∃ message, Library.call .rawset #[.table t, k, v] h s = .raised (.here message) h s := by
  obtain ⟨message, hraised⟩ := Act.rawSet_raised (h := h) (t := t) (v := v) (s := s) hk
  refine ⟨message, ?_⟩
  show (Outcome.andThen (Act.rawSet t k v h s) _ : Outcome σ (Array Value)) = _
  rw [hraised]
  rfl

/-- What is no table takes no key. -/
theorem Script.Library.rawset_wrongKind {σ : Type} {h : Heap} {x k v : Value} {s : σ} (hx : ∀ t, x ≠ .table t) :
    ∃ n message, Library.call .rawset #[x, k, v] h s = .raised (.argument n message) h s := by
  cases x with
  | table t => exact absurd rfl (hx t)
  | _ => exact ⟨_, _, rfl⟩

theorem Script.Value.rawEq_nil {x : Value} (hx : x ≠ .nil) : Value.rawEq x .nil = false := by
  cases x <;> first | exact absurd rfl hx | rfl

/-- A value differs from a constant, and what follows a comparison that it equals is left out. -/
theorem Script.Machine.Exec.differs {σ : Type} [Inhabited σ] {m : Machine σ} {n pc top a c : Nat} {x : Value}
    {regs extras : List Value} {heap : Heap} {opened : List (Nat × Nat)} {Q : Machine σ → Prop}
    (hi : m.frame.proto.code.getD pc default = .eqConst a c true) (ha : regs[a]? = some x)
    (hx : Value.rawEq x (m.frame.proto.consts.getD c .nil) = false)
    (next : Exec m n ⟨pc + 2, regs, heap, extras, top, opened⟩ Q) : Exec m (n + 1) ⟨pc, regs, heap, extras, top, opened⟩ Q := by
  refine Exec.eqConst hi ha ?_
  rw [hx]
  exact next

section
variable {h : Heap} {id : Nat} {p : Proto} {args : Array Value}

/-- What `error` raises when it is called with a message and the level of the caller's caller. -/
def blames (message : Bytes) : Raise := .level (Int64.ofInt 2).toUInt64.toNat message

/-- **Writing to a read-only table** fails and changes nothing. -/
theorem refuse_comes {name : Bytes} (hmade : IsMade h id (Prelude.refuse p) [builtin .error, .str name])
    (hargs : args.size ≤ 255) : ∃ s, Comes h (.closure id) args (.failed (.str s)) h := by
  obtain ⟨upvalues, hclosure, hups⟩ := hmade
  obtain ⟨message, hmessage⟩ : ∃ message, message
      = Bytes.concat [Bytes.ofString "attempt to modify read-only table '", name, Bytes.ofString "'"] := ⟨_, rfl⟩
  have hreaches : Reaches 9 (attempt h (.closure id) args) fun m' => ∃ x, (blames message).Makes x ∧
      Fails (attempt h (.closure id) args) h x m' := by
    refine Reaches.enter (canEnter_attempt h _ hargs rfl rfl) rfl rfl hclosure fun junk hjunk => ?_
    match junk, hjunk with
    | [r0, r1, r2, r3], _ =>
    refine Exec.getUpvalue rfl (hups 0 _ rfl) rfl ?_
    refine Exec.loadConst (.ofString "attempt to modify read-only table '") rfl rfl rfl ?_
    refine Exec.getUpvalue rfl (hups 1 _ rfl) rfl ?_
    refine Exec.loadConst (.ofString "'") rfl rfl rfl ?_
    refine Exec.concat [.ofString "attempt to modify read-only table '", .str name, .ofString "'"] rfl rfl rfl rfl ?_
    refine Exec.loadInt rfl rfl ?_
    rw [← hmessage]
    exact Exec.call_fails [.str message, .int (Int64.ofInt 2)] rfl rfl rfl (Library.error_raised (by decide)) trivial
  obtain ⟨x, ⟨s, rfl⟩, hcomes⟩ := Reaches.failed hreaches
  exact ⟨s, hcomes⟩

/-- What a step of a traversal answers. -/
def stepReply (next : Option (Option (Value × Value))) (r : Reply) : Prop :=
  match next with
  | none => ∃ s, r = .failed (.str s)
  | some none => r = .values #[.nil]
  | some (some (k, v)) => r = .values #[k, v]

/-- **A step of a traversal** of a read-only table gives the next member, and changes nothing. -/
theorem traverseStep_comes {inner : Nat} (hmade : IsMade h id (Prelude.traverseStep p) [builtin .next, .table inner])
    (hargs : args.size ≤ 255) :
    ∃ r, Comes h (.closure id) args r h ∧ stepReply ((h.table inner).next (args.getD 1 .nil)) r := by
  obtain ⟨upvalues, hclosure, hups⟩ := hmade
  obtain ⟨k, hk⟩ : ∃ k, args.getD 1 .nil = k := ⟨_, rfl⟩
  have hparams : parameters args.toList (Prelude.traverseStep p).paramCount = [args.getD 0 .nil, k] := by
    rw [parameters_eq, ← hk]
    rfl
  have hbegins {Q : Machine Unit → Prop}
      (hcall : Exec ((attempt h (.closure id) args).entered ⟨Prelude.traverseStep p, upvalues⟩ catching args.size) 1
        ⟨3, [args.getD 0 .nil, k, builtin .next, .table inner, k], h, [], 0, []⟩ Q) :
      Reaches 5 (attempt h (.closure id) args) Q := by
    refine Reaches.enter (canEnter_attempt h _ hargs rfl rfl) rfl rfl hclosure fun junk hjunk => ?_
    rw [hparams]
    match junk, hjunk with
    | [r2, r3, r4], _ =>
    refine Exec.getUpvalue rfl (hups 0 _ rfl) rfl ?_
    refine Exec.getUpvalue rfl (hups 1 _ rfl) rfl ?_
    exact Exec.move rfl rfl rfl hcall
  have hnext := Library.next_eq (h := h) (t := inner) (k := k) (s := ())
  rw [hk]
  cases hpair : (h.table inner).next k with
  | none =>
    rw [hpair] at hnext
    obtain ⟨x, ⟨s, rfl⟩, hcomes⟩ := Reaches.failed (hbegins (Exec.tailCall_fails [.table inner, k] rfl rfl rfl hnext trivial))
    exact ⟨_, hcomes, s, rfl⟩
  | some pair =>
    cases pair with
    | none =>
      rw [hpair] at hnext
      exact ⟨_, Reaches.answered (hbegins (Exec.tailCall_done [.table inner, k] rfl rfl rfl hnext rfl rfl)), rfl⟩
    | some pair =>
      rw [hpair] at hnext
      exact ⟨_, Reaches.answered (hbegins (Exec.tailCall_done [.table inner, k] rfl rfl rfl hnext rfl rfl)), rfl⟩

/-- **Beginning to traverse** a read-only table gives a step, the table and no key; the step is a new function. -/
theorem traverse_comes {inner proxy : Nat}
    (hmade : IsMade h id (Prelude.traverse p) [builtin .next, .table inner, .table proxy]) (hargs : args.size ≤ 255) :
    ∃ h', Comes h (.closure id) args (.values #[.closure h.closures.size, .table proxy, .nil]) h' ∧
      ∃ upvalues, h' = h.withClosure ⟨Prelude.traverseStep p, upvalues⟩ ∧ Keeps h.cells upvalues [builtin .next, .table inner] := by
  obtain ⟨upvalues, hclosure, hups⟩ := hmade
  obtain ⟨size, hsize⟩ : ∃ size, h.closures.size = size := ⟨_, rfl⟩
  refine ⟨h.withClosure ⟨Prelude.traverseStep p, #[upvalues.getD 0 0, upvalues.getD 1 0]⟩,
    Reaches.answered (n := 6) ?_, _, rfl, fun u x hx => ?_⟩
  · refine Reaches.enter (canEnter_attempt h _ hargs rfl rfl) rfl rfl hclosure fun junk hjunk => ?_
    match junk, hjunk with
    | [r0, r1, r2], _ =>
    refine Exec.closure (Prelude.traverseStep p) #[upvalues.getD 0 0, upvalues.getD 1 0] h.cells [] rfl rfl rfl rfl ?_
    refine Exec.getUpvalue rfl (hups 2 _ rfl) rfl ?_
    refine Exec.loadNil rfl rfl ?_
    exact Exec.ret [.closure h.closures.size, .table proxy, .nil] rfl rfl rfl rfl
  · match u, hx with
    | 0, hx => exact hups 0 x hx
    | 1, hx => exact hups 1 x hx

/-- **Measuring** a read-only table tells the length of the one behind it. -/
theorem measure_comes {inner : Nat} (hmade : IsMade h id (Prelude.measure p) [.table inner])
    (hplain : (h.table inner).metatable = none) (hargs : args.size ≤ 255) :
    Comes h (.closure id) args (.values #[.ofNat (h.table inner).border.1])
      (h.onTable inner fun _ => (h.table inner).border.2) := by
  obtain ⟨upvalues, hclosure, hups⟩ := hmade
  refine Reaches.answered (n := 4) ?_
  refine Reaches.enter (canEnter_attempt h _ hargs rfl rfl) rfl rfl hclosure fun junk hjunk => ?_
  match junk, hjunk with
  | [r0, r1], _ =>
  refine Exec.getUpvalue rfl (hups 0 _ rfl) rfl ?_
  refine Exec.len rfl rfl (fun s => nofun) (Library.length_table hplain) rfl ?_
  exact Exec.ret [.ofNat (h.table inner).border.1] rfl rfl rfl rfl

/-- What the environment keeps for writing to it. -/
def assignKeeps (host : Nat) : List Value := [builtin .rawget, .table host, builtin .error, builtin .tostring, builtin .rawset]

section
variable {host t : Nat} {k v : Value}

/-- Writing to an environment goes on past its metatable if the host binds nothing there. -/
theorem assign_goesOn {upvalues : Array Nat} (hclosure : h.closures[id]? = some ⟨Prelude.assign p, upvalues⟩)
    (hups : Keeps h.cells upvalues (assignKeeps host)) (hfree : (h.table host).get k = .nil) {Q : Machine Unit → Prop}
    (hcall : Exec ((attempt h (.closure id) #[.table t, k, v]).entered ⟨Prelude.assign p, upvalues⟩ catching 3) 2
      ⟨19, [.table t, k, v, builtin .rawset, .table t, k, v], h, [], 0, []⟩ Q) :
    Reaches 12 (attempt h (.closure id) #[.table t, k, v]) Q := by
  refine Reaches.enter (canEnter_attempt h _ (by decide : 3 ≤ 255) rfl rfl) rfl (rfl : _ = h) hclosure fun junk hjunk => ?_
  match junk, hjunk with
  | [r3, r4, r5, r6], _ =>
  refine Exec.getUpvalue rfl (hups 0 _ rfl) rfl ?_
  refine Exec.getUpvalue rfl (hups 1 _ rfl) rfl ?_
  refine Exec.move rfl rfl rfl ?_
  refine Exec.call1_done [.table host, k] rfl rfl rfl Library.rawget_done ?_
  rw [hfree]
  refine Exec.eqConst rfl rfl ?_
  refine Exec.getUpvalue rfl (hups 4 _ rfl) rfl ?_
  refine Exec.move rfl rfl rfl ?_
  refine Exec.move rfl rfl rfl ?_
  exact Exec.move rfl rfl rfl hcall

/-- **Writing to an environment** where the host binds nothing. -/
theorem assign_comes (hmade : IsMade h id (Prelude.assign p) (assignKeeps host)) (hfree : (h.table host).get k = .nil)
    (hk : k.IsKey) : Comes h (.closure id) #[.table t, k, v] (.values #[]) (h.filed t k v) := by
  obtain ⟨upvalues, hclosure, hups⟩ := hmade
  refine Reaches.answered (assign_goesOn hclosure hups hfree ?_)
  refine Exec.call_done [.table t, k, v] rfl rfl rfl (Library.rawset_done hk) ?_
  exact Exec.ret [] rfl rfl rfl rfl

/-- Writing to an environment under what is no key fails. -/
theorem assign_fails (hmade : IsMade h id (Prelude.assign p) (assignKeeps host)) (hfree : (h.table host).get k = .nil)
    (hk : ¬ k.IsKey) : ∃ s, Comes h (.closure id) #[.table t, k, v] (.failed (.str s)) h := by
  obtain ⟨upvalues, hclosure, hups⟩ := hmade
  obtain ⟨message, hraised⟩ := Library.rawset_raised (h := h) (t := t) (v := v) (s := ()) hk
  obtain ⟨x, ⟨s, rfl⟩, hcomes⟩ := Reaches.failed (assign_goesOn hclosure hups hfree
    (Exec.call_fails [.table t, k, v] rfl rfl rfl hraised trivial))
  exact ⟨s, hcomes⟩

/-- Writing to an environment is blamed on the caller. -/
theorem assign_blames {name : Bytes} {upvalues : Array Nat} (hups : Keeps h.cells upvalues (assignKeeps host))
    (hplain : h.metamethod (.str name) (Bytes.ofString "__tostring") = .nil) {message : Bytes}
    (hmessage : message = Bytes.concat [Bytes.ofString "cannot assign to protected global '", name, Bytes.ofString "'"])
    (r3 r4 r5 r6 : Value) :
    Exec ((attempt h (.closure id) #[.table t, .str name, v]).entered ⟨Prelude.assign p, upvalues⟩ catching 3) 9
      ⟨6, [.table t, .str name, v, r3, r4, r5, r6], h, [], 0, []⟩ fun m' => ∃ x, (blames message).Makes x ∧
        Fails (attempt h (.closure id) #[.table t, .str name, v]) h x m' := by
  refine Exec.getUpvalue rfl (hups 2 _ rfl) rfl ?_
  refine Exec.loadConst (.ofString "cannot assign to protected global '") rfl rfl rfl ?_
  refine Exec.getUpvalue rfl (hups 3 _ rfl) rfl ?_
  refine Exec.move rfl rfl rfl ?_
  refine Exec.call1_done [.str name] rfl rfl rfl (Library.tostring_str hplain) ?_
  refine Exec.loadConst (.ofString "'") rfl rfl rfl ?_
  refine Exec.concat [.ofString "cannot assign to protected global '", .str name, .ofString "'"] rfl rfl rfl rfl ?_
  refine Exec.loadInt rfl rfl ?_
  rw [← hmessage]
  exact Exec.call_fails [.str message, .int (Int64.ofInt 2)] rfl rfl rfl (Library.error_raised (by decide)) trivial

/-- **Writing to an environment** where the host binds a value fails and changes nothing. -/
theorem assign_refuses {name : Bytes} (hmade : IsMade h id (Prelude.assign p) (assignKeeps host))
    (hbound : (h.table host).get (.str name) ≠ .nil)
    (hplain : h.metamethod (.str name) (Bytes.ofString "__tostring") = .nil) :
    ∃ s, Comes h (.closure id) #[.table t, .str name, v] (.failed (.str s)) h := by
  obtain ⟨upvalues, hclosure, hups⟩ := hmade
  obtain ⟨message, hmessage⟩ : ∃ message, message
      = Bytes.concat [Bytes.ofString "cannot assign to protected global '", name, Bytes.ofString "'"] := ⟨_, rfl⟩
  have hreaches : Reaches 15 (attempt h (.closure id) #[.table t, .str name, v]) fun m' =>
      ∃ x, (blames message).Makes x ∧ Fails (attempt h (.closure id) #[.table t, .str name, v]) h x m' := by
    refine Reaches.enter (canEnter_attempt h _ (by decide : 3 ≤ 255) rfl rfl) rfl (rfl : _ = h) hclosure fun junk hjunk => ?_
    match junk, hjunk with
    | [r3, r4, r5, r6], _ =>
    refine Exec.getUpvalue rfl (hups 0 _ rfl) rfl ?_
    refine Exec.getUpvalue rfl (hups 1 _ rfl) rfl ?_
    refine Exec.move rfl rfl rfl ?_
    refine Exec.call1_done [.table host, .str name] rfl rfl rfl Library.rawget_done ?_
    refine Exec.differs rfl rfl (Value.rawEq_nil hbound) ?_
    exact assign_blames hups hplain hmessage _ _ _ r6
  obtain ⟨x, ⟨s, rfl⟩, hcomes⟩ := Reaches.failed hreaches
  exact ⟨s, hcomes⟩

end

/-! ### Writing past metatables -/

/-- What the function that writes past metatables keeps. -/
def rawsetKeeps (frozen hosts : Nat) : List Value :=
  [.table frozen, builtin .error, .table hosts, builtin .rawget, builtin .tostring, builtin .rawset]

/-- Reading from a table gives a value, whoever asks. -/
def LooksUp (h : Heap) (t : Nat) (k x : Value) : Prop :=
  ∀ source, Act.index (.table t) k source true h () = .done x h ()

section
variable {frozen hosts : Nat} {t k v : Value}

/-- The registers of the function that writes past metatables. -/
theorem rawset_parameters (hargs : args.getD 0 .nil = t ∧ args.getD 1 .nil = k ∧ args.getD 2 .nil = v) :
    parameters args.toList (Prelude.rawset p).paramCount = [t, k, v] := by
  obtain ⟨ht, hk, hv⟩ := hargs
  rw [parameters_eq, ← ht, ← hk, ← hv]
  rfl

/-- **Writing past the metatable** of a read-only table fails and changes nothing. -/
theorem rawset_refuses (hmade : IsMade h id (Prelude.rawset p) (rawsetKeeps frozen hosts))
    (hargs : args.getD 0 .nil = t ∧ args.getD 1 .nil = k ∧ args.getD 2 .nil = v) (hsize : args.size ≤ 255)
    (hfrozen : LooksUp h frozen t (.bool true)) : ∃ s, Comes h (.closure id) args (.failed (.str s)) h := by
  obtain ⟨upvalues, hclosure, hups⟩ := hmade
  obtain ⟨message, hmessage⟩ : ∃ message, message = Bytes.ofString "attempt to modify read-only table" := ⟨_, rfl⟩
  have hreaches : Reaches 9 (attempt h (.closure id) args) fun m' => ∃ x, (blames message).Makes x ∧
      Fails (attempt h (.closure id) args) h x m' := by
    refine Reaches.enter (canEnter_attempt h _ hsize rfl rfl) rfl (rfl : _ = h) hclosure fun junk hjunk => ?_
    rw [rawset_parameters hargs]
    match junk, hjunk with
    | [r3, r4, r5, r6, r7], _ =>
    refine Exec.getUpvalue rfl (hups 0 _ rfl) rfl ?_
    refine Exec.getTable rfl rfl rfl hfrozen rfl ?_
    refine Exec.test rfl rfl ?_
    refine Exec.getUpvalue rfl (hups 1 _ rfl) rfl ?_
    refine Exec.loadConst (.str message) rfl (hmessage ▸ rfl) rfl ?_
    refine Exec.loadInt rfl rfl ?_
    exact Exec.call_fails [.str message, .int (Int64.ofInt 2)] rfl rfl rfl (Library.error_raised (by decide)) trivial
  obtain ⟨x, ⟨s, rfl⟩, hcomes⟩ := Reaches.failed hreaches
  exact ⟨s, hcomes⟩

/-- Nothing keeps the function from writing to a table past its metatable. -/
def IsFree (h : Heap) (frozen hosts : Nat) (t k : Value) : Prop :=
  LooksUp h frozen t .nil ∧ (LooksUp h hosts t .nil ∨ ∃ host, LooksUp h hosts t (.table host) ∧ (h.table host).get k = .nil)

/-- The end of the function that writes past metatables. -/
theorem rawset_ends {m : Machine Unit} (hproto : m.frame.proto = Prelude.rawset p)
    (hups : Keeps h.cells m.frame.upvalues (rawsetKeeps frozen hosts)) {Q : Machine Unit → Prop} (r3 r4 r5 r6 r7 : Value)
    (hcall : Exec m 1 ⟨31, [t, k, v, r3, builtin .rawset, t, k, v], h, [], 0, []⟩ Q) :
    Exec m 5 ⟨27, [t, k, v, r3, r4, r5, r6, r7], h, [], 0, []⟩ Q := by
  have hcode (pc : Nat) : m.frame.proto.code.getD pc default = (Prelude.rawset p).code.getD pc default := by rw [hproto]
  refine Exec.getUpvalue (hcode 27) (hups 5 _ rfl) rfl ?_
  refine Exec.move (hcode 28) rfl rfl ?_
  refine Exec.move (hcode 29) rfl rfl ?_
  exact Exec.move (hcode 30) rfl rfl hcall

/-- The function that writes past metatables looks whether the table is read-only, and whether it is an environment. -/
theorem rawset_begins {upvalues : Array Nat} (hclosure : h.closures[id]? = some ⟨Prelude.rawset p, upvalues⟩)
    (hups : Keeps h.cells upvalues (rawsetKeeps frozen hosts))
    (hargs : args.getD 0 .nil = t ∧ args.getD 1 .nil = k ∧ args.getD 2 .nil = v) (hsize : args.size ≤ 255)
    (hfrozen : LooksUp h frozen t .nil) {host : Value} (hhost : LooksUp h hosts t host) {Q : Machine Unit → Prop} {n : Nat}
    (hlooked : ∀ r4 r5 r6 r7, Exec ((attempt h (.closure id) args).entered ⟨Prelude.rawset p, upvalues⟩ catching args.size) n
      ⟨10, [t, k, v, host, r4, r5, r6, r7], h, [], 0, []⟩ Q) : Reaches (n + 6) (attempt h (.closure id) args) Q := by
  refine Reaches.enter (canEnter_attempt h _ hsize rfl rfl) rfl (rfl : _ = h) hclosure fun junk hjunk => ?_
  rw [rawset_parameters hargs]
  match junk, hjunk with
  | [r3, r4, r5, r6, r7], _ =>
  refine Exec.getUpvalue rfl (hups 0 _ rfl) rfl ?_
  refine Exec.getTable rfl rfl rfl hfrozen rfl ?_
  refine Exec.test rfl rfl ?_
  refine Exec.getUpvalue rfl (hups 2 _ rfl) rfl ?_
  exact Exec.getTable rfl rfl rfl hhost rfl (hlooked r4 r5 r6 r7)

/-- Nothing keeps the function from writing. -/
theorem rawset_goesOn {upvalues : Array Nat} (hclosure : h.closures[id]? = some ⟨Prelude.rawset p, upvalues⟩)
    (hups : Keeps h.cells upvalues (rawsetKeeps frozen hosts))
    (hargs : args.getD 0 .nil = t ∧ args.getD 1 .nil = k ∧ args.getD 2 .nil = v) (hsize : args.size ≤ 255)
    (hfree : IsFree h frozen hosts t k) {Q : Machine Unit → Prop}
    (hcall : ∀ r3, Exec ((attempt h (.closure id) args).entered ⟨Prelude.rawset p, upvalues⟩ catching args.size) 1
      ⟨31, [t, k, v, r3, builtin .rawset, t, k, v], h, [], 0, []⟩ Q) : Reaches 17 (attempt h (.closure id) args) Q := by
  obtain ⟨hfrozen, hnone | ⟨host, hhost, hunbound⟩⟩ := hfree
  · refine (rawset_begins (n := 6) hclosure hups hargs hsize hfrozen hnone fun r4 r5 r6 r7 => ?_).mono (by omega)
    refine Exec.eqConst rfl rfl ?_
    exact rawset_ends rfl hups _ r4 r5 r6 r7 (hcall _)
  · refine rawset_begins hclosure hups hargs hsize hfrozen hhost fun r4 r5 r6 r7 => ?_
    refine Exec.differs rfl rfl rfl ?_
    refine Exec.getUpvalue rfl (hups 3 _ rfl) rfl ?_
    refine Exec.move rfl rfl rfl ?_
    refine Exec.move rfl rfl rfl ?_
    refine Exec.call1_done [.table host, k] rfl rfl rfl Library.rawget_done ?_
    rw [hunbound]
    refine Exec.eqConst rfl rfl ?_
    exact rawset_ends rfl hups _ _ _ _ r7 (hcall _)

/-- **Writing past the metatable** of a table that nothing keeps from it. -/
theorem rawset_comes {id' : Nat} (hmade : IsMade h id (Prelude.rawset p) (rawsetKeeps frozen hosts))
    (hargs : args.getD 0 .nil = .table id' ∧ args.getD 1 .nil = k ∧ args.getD 2 .nil = v) (hsize : args.size ≤ 255)
    (hfree : IsFree h frozen hosts (.table id') k) (hk : k.IsKey) :
    Comes h (.closure id) args (.values #[.table id']) (h.filed id' k v) := by
  obtain ⟨upvalues, hclosure, hups⟩ := hmade
  refine Reaches.answered (rawset_goesOn hclosure hups hargs hsize hfree fun r3 => ?_)
  exact Exec.tailCall_done [.table id', k, v] rfl rfl rfl (Library.rawset_done hk) rfl rfl

/-- Writing past the metatable of what is no table, or under what is no key, fails and changes nothing. -/
theorem rawset_fails (hmade : IsMade h id (Prelude.rawset p) (rawsetKeeps frozen hosts))
    (hargs : args.getD 0 .nil = t ∧ args.getD 1 .nil = k ∧ args.getD 2 .nil = v) (hsize : args.size ≤ 255)
    (hfree : IsFree h frozen hosts t k) (hnot : (∀ id', t ≠ .table id') ∨ ¬ k.IsKey) :
    ∃ s, Comes h (.closure id) args (.failed (.str s)) h := by
  obtain ⟨upvalues, hclosure, hups⟩ := hmade
  obtain ⟨e, hraised, hplain, hmakes⟩ : ∃ e, Library.call .rawset #[t, k, v] h () = .raised e h () ∧ IsPlain e ∧
      ∀ x, e.Makes x → ∃ s, x = .str s := by
    by_cases ht : ∃ id', t = .table id'
    · obtain ⟨id', rfl⟩ := ht
      obtain ⟨message, hraised⟩ := Library.rawset_raised (h := h) (t := id') (v := v) (s := ())
        (hnot.resolve_left fun h => h id' rfl)
      exact ⟨_, hraised, trivial, fun x hx => hx⟩
    · obtain ⟨n, message, hraised⟩ := Library.rawset_wrongKind (h := h) (k := k) (v := v) (s := ())
        fun id' heq => ht ⟨id', heq⟩
      exact ⟨_, hraised, trivial, fun x hx => hx⟩
  obtain ⟨x, hx, hcomes⟩ := Reaches.failed (rawset_goesOn hclosure hups hargs hsize hfree fun r3 =>
    Exec.tailCall_fails [t, k, v] rfl rfl rfl hraised hplain)
  obtain ⟨s, rfl⟩ := hmakes x hx
  exact ⟨s, hcomes⟩

/-- Writing past the metatable of an environment is blamed on the caller. -/
theorem rawset_blames {m : Machine Unit} (hproto : m.frame.proto = Prelude.rawset p)
    (hups : Keeps h.cells m.frame.upvalues (rawsetKeeps frozen hosts)) {name : Bytes}
    (hplain : h.metamethod (.str name) (Bytes.ofString "__tostring") = .nil) {message : Bytes}
    (hmessage : message = Bytes.concat [Bytes.ofString "cannot assign to protected global '", name, Bytes.ofString "'"])
    (r3 r4 r5 r6 r7 : Value) :
    Exec m 9 ⟨18, [t, .str name, v, r3, r4, r5, r6, r7], h, [], 0, []⟩ fun m' => ∃ x, (blames message).Makes x ∧
      Fails m h x m' := by
  have hcode (pc : Nat) : m.frame.proto.code.getD pc default = (Prelude.rawset p).code.getD pc default := by rw [hproto]
  have hconst (c : Nat) : m.frame.proto.consts.getD c .nil = (Prelude.rawset p).consts.getD c .nil := by rw [hproto]
  refine Exec.getUpvalue (hcode 18) (hups 1 _ rfl) rfl ?_
  refine Exec.loadConst (.ofString "cannot assign to protected global '") (hcode 19) (hconst 2) rfl ?_
  refine Exec.getUpvalue (hcode 20) (hups 4 _ rfl) rfl ?_
  refine Exec.move (hcode 21) rfl rfl ?_
  refine Exec.call1_done [.str name] (hcode 22) rfl rfl (Library.tostring_str hplain) ?_
  refine Exec.loadConst (.ofString "'") (hcode 23) (hconst 3) rfl ?_
  refine Exec.concat [.ofString "cannot assign to protected global '", .str name, .ofString "'"] (hcode 24) rfl rfl rfl ?_
  refine Exec.loadInt (hcode 25) rfl ?_
  rw [← hmessage]
  exact Exec.call_fails [.str message, .int (Int64.ofInt 2)] (hcode 26) rfl rfl (Library.error_raised (by decide)) trivial

/-- **Writing past the metatable** of an environment where the host binds a value fails and changes nothing. -/
theorem rawset_protects {name : Bytes} {host : Nat} (hmade : IsMade h id (Prelude.rawset p) (rawsetKeeps frozen hosts))
    (hargs : args.getD 0 .nil = t ∧ args.getD 1 .nil = .str name ∧ args.getD 2 .nil = v) (hsize : args.size ≤ 255)
    (hfrozen : LooksUp h frozen t .nil) (hhost : LooksUp h hosts t (.table host)) (hbound : (h.table host).get (.str name) ≠ .nil)
    (hplain : h.metamethod (.str name) (Bytes.ofString "__tostring") = .nil) :
    ∃ s, Comes h (.closure id) args (.failed (.str s)) h := by
  obtain ⟨upvalues, hclosure, hups⟩ := hmade
  obtain ⟨message, hmessage⟩ : ∃ message, message
      = Bytes.concat [Bytes.ofString "cannot assign to protected global '", name, Bytes.ofString "'"] := ⟨_, rfl⟩
  have hreaches : Reaches 21 (attempt h (.closure id) args) fun m' =>
      ∃ x, (blames message).Makes x ∧ Fails (attempt h (.closure id) args) h x m' := by
    refine rawset_begins (n := 15) hclosure hups hargs hsize hfrozen hhost fun r4 r5 r6 r7 => ?_
    refine Exec.differs rfl rfl rfl ?_
    refine Exec.getUpvalue rfl (hups 3 _ rfl) rfl ?_
    refine Exec.move rfl rfl rfl ?_
    refine Exec.move rfl rfl rfl ?_
    refine Exec.call1_done [.table host, .str name] rfl rfl rfl Library.rawget_done ?_
    refine Exec.differs rfl rfl (Value.rawEq_nil hbound) ?_
    exact rawset_blames rfl hups hplain hmessage _ _ _ _ r7
  obtain ⟨x, ⟨s, rfl⟩, hcomes⟩ := Reaches.failed hreaches
  exact ⟨s, hcomes⟩

end

end

end ScriptHost

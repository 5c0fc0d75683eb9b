import ScriptHost.Proofs.Sharing.Aftermath
import ScriptHost.World

/-!
# Many sessions and their terminals

Sessions are started on terminals, taken or refused, and each does what it does in its order: it changes the hooks of its
terminal, gives back what it holds, and leaves the terminal.  The steps of different sessions come in any order.

* `Resources.leave` — a session leaves its terminal;
* `Hall`, `Seat` — the world, and how far each session is;
* `Hall.Step` — everything that can happen, one step at a time;
* `Hall.Standing`, **`standing_step`** — a terminal is held by the one session that took it, and one that nobody holds has
  its hooks as they are by default;
* **`hall_of_course`** — what follows for every step.
-/

namespace ScriptHost

/-! ### What one session does to the terminals -/

namespace Resources

variable (r : Resources) (h : Host)

/-- A session leaves its terminal. -/
def leave : Host :=
  match r.terminal with
  | some t => h.onTerminal t fun x => x.release r.id
  | none => h

theorem held?_eq_some {t : Nat} : r.held? h = some t ↔ r.terminal = some t ∧ (h.terminal t).active = some r.id := by
  rw [held?, Option.filter_eq_some_iff, Host.isHeldBy_iff]

theorem changeHooks_terminal (f : Hooks → Hooks) (t : Nat) :
    (r.changeHooks h f).2.terminal t
      = if r.held? h = some t then { h.terminal t with hooks := f (h.terminal t).hooks } else h.terminal t := by
  rw [changeHooks]
  cases hheld : r.held? h with
  | none => rfl
  | some k =>
    show (h.onTerminal k _).terminal t = _
    rw [Host.terminal_onTerminal]
    by_cases ht : t = k
    · obtain ⟨-, hactive⟩ := (r.held?_eq_some h).mp hheld
      rw [if_pos ⟨ht, Host.lt_size_of_active hactive⟩, if_pos (congrArg some ht.symm)]
    · rw [if_neg fun hk => ht hk.1, if_neg fun hk => ht (Option.some.inj hk).symm]

theorem release_terminal (hr : r.released = false) (t : Nat) :
    (r.release h).2.2.terminal t = if r.held? h = some t then (h.terminal t).clearHooks else h.terminal t := by
  rw [release_eq r h hr]
  exact r.freed_terminal h t

theorem leave_terminal (t : Nat) :
    (r.leave h).terminal t = if r.held? h = some t then { h.terminal t with active := none } else h.terminal t := by
  rw [leave]
  split
  · rename_i k hk
    rw [Host.terminal_onTerminal]
    by_cases hheld : r.held? h = some t
    · obtain ⟨hterminal, hactive⟩ := (r.held?_eq_some h).mp hheld
      have ht : t = k := Option.some.inj (hterminal.symm.trans hk)
      rw [if_pos ⟨ht, ht ▸ Host.lt_size_of_active hactive⟩, if_pos hheld, Terminal.release, if_pos hactive]
    · rw [if_neg hheld]
      split
      · rename_i ht
        rw [Terminal.release, if_neg]
        intro hactive
        exact hheld ((r.held?_eq_some h).mpr ⟨hk.trans (congrArg some ht.1.symm), hactive⟩)
      · rfl
  · rename_i hnone
    rw [if_neg]
    intro hheld
    rw [((r.held?_eq_some h).mp hheld).1] at hnone
    cases hnone

end Resources

/-- Nothing that a session does with its other resources reaches the terminals, or its place at one. -/
theorem Deed.run_terminals {d : Deed} (hd : d ≠ .release) (r : Resources) (h : Host) :
    (d.run r h).2.terminals = h.terminals ∧ (d.run r h).1.id = r.id ∧ (d.run r h).1.terminal = r.terminal ∧
      (d.run r h).1.released = r.released := by
  have he := d.run_effect r h
  generalize d.run r h = x at he
  cases he with
  | registered => dsimp only; split <;> exact ⟨rfl, rfl, rfl, rfl⟩
  | attached => dsimp only; split <;> exact ⟨rfl, rfl, rfl, rfl⟩
  | released => exact absurd rfl hd
  | _ => exact ⟨rfl, rfl, rfl, rfl⟩

/-! ### How a session is started -/

/-- A request for a terminal that there is, if for any. -/
def Request.Placed (r : Request) (h : Host) : Prop := ∀ t, r.terminal = some t → t < h.terminals.size

namespace World

variable (w : World) (r : Request) (id : Nat)

/-- What comes of taking a terminal. -/
theorem claim_cases :
    (r.terminal = none ∧ w.claim r id = (true, w)) ∨
    (∃ t, r.terminal = some t ∧ (w.host.terminal t).active = none ∧
      w.claim r id = (true, { w with host := w.host.onTerminal t fun x => (x.claim id).2 })) ∨
    ∃ t i, r.terminal = some t ∧ (w.host.terminal t).active = some i ∧ w.claim r id = (false, w) := by
  rw [claim]
  cases r.terminal with
  | none => exact .inl ⟨rfl, rfl⟩
  | some t =>
    cases hactive : (w.host.terminal t).active with
    | none =>
      have hfree : (w.host.terminal t).claim id = (true, { w.host.terminal t with active := some id }) :=
        if_neg (by rw [hactive]; decide)
      exact .inr (.inl ⟨t, rfl, hactive, by simp only [hfree]⟩)
    | some i =>
      have htaken : (w.host.terminal t).claim id = (false, w.host.terminal t) := if_pos (by rw [hactive]; rfl)
      exact .inr (.inr ⟨t, i, rfl, hactive, by simp only [htaken]⟩)

/-- A session takes its terminal, if it has one, exactly if no other session holds it. -/
theorem claim_fst_iff : (w.claim r id).1 = true ↔ ∀ t, r.terminal = some t → (w.host.terminal t).active = none := by
  rcases w.claim_cases r id with ⟨hnone, heq⟩ | ⟨k, hk, hactive, heq⟩ | ⟨k, i, hk, hactive, heq⟩ <;> rw [heq]
  · rw [hnone]
    exact iff_of_true rfl fun t ht => nomatch ht
  · exact iff_of_true rfl fun t ht => Option.some.inj (hk.symm.trans ht) ▸ hactive
  · refine iff_of_false Bool.false_ne_true fun hfree => ?_
    rw [hfree k hk] at hactive
    cases hactive

/-- The terminals when a session has taken its own, or has not. -/
theorem claim_terminal (hr : r.Placed w.host) (t : Nat) :
    (w.claim r id).2.host.terminal t
      = if (w.claim r id).1 = true ∧ r.terminal = some t then { w.host.terminal t with active := some id }
        else w.host.terminal t := by
  rcases w.claim_cases r id with ⟨hnone, heq⟩ | ⟨k, hk, hactive, heq⟩ | ⟨k, i, hk, hactive, heq⟩ <;> rw [heq]
  · rw [if_neg fun h => Option.some_ne_none t (h.2.symm.trans hnone)]
  · show (w.host.onTerminal k _).terminal t = _
    rw [Host.terminal_onTerminal]
    by_cases ht : t = k
    · have hfree : (w.host.terminal t).active.isSome = false := by
        rw [ht, hactive]
        rfl
      rw [if_pos ⟨ht, hr k hk⟩, if_pos ⟨rfl, ht ▸ hk⟩, Terminal.claim, hfree]
      rfl
    · rw [if_neg fun h => ht h.1, if_neg fun h => ht (Option.some.inj (h.2.symm.trans hk))]
  · exact (if_neg fun h => Bool.false_ne_true h.1).symm

theorem claim_sizes : (w.claim r id).2.slots.size = w.slots.size ∧
    (w.claim r id).2.host.terminals.size = w.host.terminals.size := by
  rcases w.claim_cases r id with ⟨-, heq⟩ | ⟨k, -, -, heq⟩ | ⟨k, i, -, -, heq⟩ <;> rw [heq]
  · exact ⟨rfl, rfl⟩
  · exact ⟨rfl, Host.size_onTerminal _ _ _⟩
  · exact ⟨rfl, rfl⟩

/-- What a session holds when it begins. -/
theorem add_resources :
    ((w.add r).2.job w.slots.size).access.own.resources = { id := w.slots.size, terminal := r.terminal } := by
  rw [job, add, Array.getD_eq_getD_getElem?, Array.getElem?_push_size]
  rfl

/-- A session is started that takes its terminal, or it is refused and nothing changes. -/
theorem spawn_eq : w.spawn r = if (w.claim r w.slots.size).1 = true
    then (some (w.claim r w.slots.size).2.slots.size, ((w.claim r w.slots.size).2.add r).2) else (none, w) := by
  rw [spawn]
  rcases w.claim_cases r w.slots.size with ⟨-, heq⟩ | ⟨k, -, -, heq⟩ | ⟨k, i, -, -, heq⟩ <;> rw [heq] <;> rfl

theorem spawn_of_none {w : World} {r : Request} (h : (w.spawn r).1 = none) : (w.spawn r).2 = w := by
  rw [spawn_eq] at h ⊢
  split at h
  · cases h
  · rename_i hclaim
    rw [if_neg hclaim]

end World

/-! ### Everything that can happen -/

/-- How far a session is. -/
structure Seat where
  resources : Resources
  /-- The session took its terminal when it was started. -/
  took : Bool
  /-- The session has left its terminal. -/
  gone : Bool := false

/-- A session holds a terminal: it took it and has not left. -/
def Seat.Holds (x : Seat) (t : Nat) : Prop := x.took = true ∧ x.gone = false ∧ x.resources.terminal = some t

/-- The world, and how far each session is that was started. -/
structure Hall where
  world : World
  seat : Nat → Option Seat := fun _ => none

/-- What happens next. -/
inductive Hall.Move where
  | spawn (r : Request)
  | run (r : Request)
  | hooks (i : Nat) (f : Hooks → Hooks)
  | deed (i : Nat) (d : Deed)
  | leave (i : Nat)
  | signal (t : Nat) (requester : Option String)
  | elsewhere

namespace Hall

/-- A session holds a terminal. -/
def Holds (s : Hall) (i t : Nat) : Prop := ∃ x, s.seat i = some x ∧ x.Holds t

/-- The world with another host. -/
def onHost (s : Hall) (h : Host) : Hall := { s with world := { s.world with host := h } }

/-- A session is as far as this. -/
def reseat (s : Hall) (i : Nat) (x : Seat) : Hall := { s with seat := Function.update s.seat i (some x) }

/-- A session was started on the way to a world. -/
def seated (s : Hall) (r : Request) (id : Nat) (w : World) : Hall :=
  { s with world := w }.reseat id { resources := (w.job id).access.own.resources, took := (s.world.claim r id).1 }

/-- What can happen.  A session that was started changes hooks and does other things, then it gives back what it holds,
and then it leaves its terminal. -/
inductive Step (s : Hall) : Move → Hall → Prop
  | refused {r : Request} (hr : r.Placed s.world.host) (h : (s.world.spawn r).1 = none) :
      Step s (.spawn r) { s with world := (s.world.spawn r).2 }
  | spawned {r : Request} (hr : r.Placed s.world.host) {id : Nat} (h : (s.world.spawn r).1 = some id) :
      Step s (.spawn r) (s.seated r id (s.world.spawn r).2)
  | ran {r : Request} (hr : r.Placed s.world.host) : Step s (.run r) (s.seated r (s.world.run r).1 (s.world.run r).2)
  | hooks {i : Nat} {x : Seat} (hseat : s.seat i = some x) (hopen : x.resources.released = false) (f : Hooks → Hooks) :
      Step s (.hooks i f) (s.onHost (x.resources.changeHooks s.world.host f).2)
  | deed {i : Nat} {x : Seat} (hseat : s.seat i = some x) (hopen : x.resources.released = false) (d : Deed) :
      Step s (.deed i d) ((s.onHost (d.run x.resources s.world.host).2).reseat i
        { x with resources := (d.run x.resources s.world.host).1 })
  | leave {i : Nat} {x : Seat} (hseat : s.seat i = some x) (hreleased : x.resources.released = true)
      (hhere : x.gone = false) :
      Step s (.leave i) ((s.onHost (x.resources.leave s.world.host)).reseat i { x with gone := true })
  | signal (t : Nat) (requester : Option String) :
      Step s (.signal t requester) (s.onHost (s.world.host.sigTerm t requester).2)
  /-- Anything that leaves the hooks of the terminals and the sessions at them alone. -/
  | elsewhere {w : World} (hslots : w.slots.size = s.world.slots.size)
      (hsize : w.host.terminals.size = s.world.host.terminals.size)
      (hsame : ∀ t, (w.host.terminal t).active = (s.world.host.terminal t).active ∧
        (w.host.terminal t).hooks = (s.world.host.terminal t).hooks) : Step s .elsewhere { s with world := w }

/-- What comes about. -/
inductive Course (start : Hall) : Hall → Prop
  | start : Course start start
  | step {s t : Hall} {move : Move} (h : Course start s) (hstep : s.Step move t) : Course start t

/-- No session was started, and every terminal is as it is by default. -/
structure Empty (s : Hall) : Prop where
  seat : ∀ i, s.seat i = none
  active : ∀ t, (s.world.host.terminal t).active = none
  hooks : ∀ t, (s.world.host.terminal t).hooks = {}

/-- What is true all the time. -/
structure Standing (s : Hall) : Prop where
  /-- Sessions have the numbers of their places. -/
  bound : ∀ i, s.world.slots.size ≤ i → s.seat i = none
  id : ∀ {i x}, s.seat i = some x → x.resources.id = i
  /-- A terminal has the session that took it and has not left. -/
  active : ∀ t i, (s.world.host.terminal t).active = some i ↔ s.Holds i t
  /-- Hooks are changed only where a session holds the terminal that has not given back what it holds. -/
  changed : ∀ t, (s.world.host.terminal t).hooks ≠ {} →
    ∃ i x, s.seat i = some x ∧ x.Holds t ∧ x.resources.released = false

theorem holds_reseat (s : Hall) (i : Nat) (x : Seat) (j t : Nat) :
    (s.reseat i x).Holds j t ↔ if j = i then x.Holds t else s.Holds j t := by
  rw [Holds, reseat]
  by_cases hj : j = i
  · rw [if_pos hj, hj]
    simp only [Function.update_self, Option.some.injEq, exists_eq_left']
  · rw [if_neg hj]
    simp only [Function.update_of_ne hj]
    rfl

theorem seat_reseat {s : Hall} {i j : Nat} {x y : Seat} (h : (s.reseat i x).seat j = some y) :
    j = i ∧ y = x ∨ j ≠ i ∧ s.seat j = some y := by
  have hseat : Function.update s.seat i (some x) j = some y := h
  by_cases hj : j = i
  · rw [hj, Function.update_self] at hseat
    exact .inl ⟨hj, (Option.some.inj hseat).symm⟩
  · rw [Function.update_of_ne hj] at hseat
    exact .inr ⟨hj, hseat⟩

/-- The session that was started last. -/
theorem seated_eq (s : Hall) (r : Request) :
    s.seated r s.world.slots.size ((s.world.claim r s.world.slots.size).2.add r).2
      = { s with world := ((s.world.claim r s.world.slots.size).2.add r).2 }.reseat s.world.slots.size
          { resources := { id := s.world.slots.size, terminal := r.terminal }
            took := (s.world.claim r s.world.slots.size).1 } := by
  have hsize := (s.world.claim_sizes r s.world.slots.size).1
  have hresources := (s.world.claim r s.world.slots.size).2.add_resources r
  rw [hsize] at hresources
  rw [seated, hresources]

/-- **All that a start can come to.** -/
theorem step_start {s s' : Hall} {move : Move} (h : s.Step move s') {r : Request} (hmove : move = .spawn r ∨ move = .run r) :
    r.Placed s.world.host ∧
      ((s.world.claim r s.world.slots.size).1 = false ∧ move = .spawn r ∧ s' = s ∨
        s' = s.seated r s.world.slots.size ((s.world.claim r s.world.slots.size).2.add r).2) := by
  have hsize := (s.world.claim_sizes r s.world.slots.size).1
  have hrun : s.world.run r = (s.world.slots.size, ((s.world.claim r s.world.slots.size).2.add r).2) := by
    rw [World.run, World.add, hsize]
  cases h with
  | @refused q hr hnone =>
    obtain rfl : q = r := by rcases hmove with hmove | hmove <;> cases hmove; rfl
    rw [World.spawn_eq] at hnone ⊢
    split at hnone
    · cases hnone
    · rename_i hclaim
      rw [if_neg hclaim]
      exact ⟨hr, .inl ⟨Bool.eq_false_iff.mpr hclaim, rfl, rfl⟩⟩
  | @spawned q hr id hsome =>
    obtain rfl : q = r := by rcases hmove with hmove | hmove <;> cases hmove; rfl
    rw [World.spawn_eq] at hsome ⊢
    split at hsome
    · rename_i hclaim
      rw [if_pos hclaim, ← Option.some.inj hsome, hsize]
      exact ⟨hr, .inr rfl⟩
    · cases hsome
  | @ran q hr =>
    obtain rfl : q = r := by rcases hmove with hmove | hmove <;> cases hmove; rfl
    rw [hrun]
    exact ⟨hr, .inr rfl⟩
  | _ => rcases hmove with hmove | hmove <;> cases hmove

namespace Standing

variable {s : Hall}

/-- A session's own look at its terminal tells whether the session holds it. -/
theorem held?_iff (h : s.Standing) {i : Nat} {x : Seat} (hseat : s.seat i = some x) (t : Nat) :
    x.resources.held? s.world.host = some t ↔ x.Holds t := by
  rw [Resources.held?_eq_some, h.id hseat, h.active]
  constructor
  · rintro ⟨-, y, hy, hholds⟩
    obtain rfl : y = x := Option.some.inj (hy.symm.trans hseat)
    exact hholds
  · intro hholds
    exact ⟨hholds.2.2, x, hseat, hholds⟩

/-- A start. -/
theorem start (h : s.Standing) {r : Request} (hr : r.Placed s.world.host) :
    (s.seated r s.world.slots.size ((s.world.claim r s.world.slots.size).2.add r).2).Standing := by
  have hnew : s.seat s.world.slots.size = none := h.bound _ (Nat.le_refl _)
  have hnobody (t : Nat) : ¬ s.Holds s.world.slots.size t := by
    rintro ⟨x, hx, -⟩
    rw [hnew] at hx
    cases hx
  have hterminal := s.world.claim_terminal r s.world.slots.size hr
  have hfree := s.world.claim_fst_iff r s.world.slots.size
  rw [seated_eq]
  refine { bound := ?_, id := ?_, active := ?_, changed := ?_ }
  · intro i hi
    have hlt : s.world.slots.size < i := by
      have hsize := (s.world.claim_sizes r s.world.slots.size).1
      have hpush : ((s.world.claim r s.world.slots.size).2.add r).2.slots.size = s.world.slots.size + 1 := by
        rw [World.add, Array.size_push, hsize]
      have hle : ((s.world.claim r s.world.slots.size).2.add r).2.slots.size ≤ i := hi
      omega
    exact (Function.update_of_ne (Nat.ne_of_gt hlt) _ _).trans (h.bound i (Nat.le_of_lt hlt))
  · intro i x hx
    rcases seat_reseat hx with ⟨rfl, rfl⟩ | ⟨-, hold⟩
    · rfl
    · exact h.id hold
  · intro t i
    rw [holds_reseat]
    show ((s.world.claim r s.world.slots.size).2.host.terminal t).active = some i ↔ _
    rw [hterminal t]
    by_cases htook : (s.world.claim r s.world.slots.size).1 = true ∧ r.terminal = some t
    · rw [if_pos htook]
      by_cases hi : i = s.world.slots.size
      · rw [if_pos hi, hi]
        exact iff_of_true rfl ⟨htook.1, rfl, htook.2⟩
      · rw [if_neg hi]
        refine iff_of_false (fun heq => hi (Option.some.inj heq).symm) fun hheld => ?_
        have hactive := (h.active t i).mpr hheld
        rw [hfree.mp htook.1 t htook.2] at hactive
        cases hactive
    · rw [if_neg htook]
      by_cases hi : i = s.world.slots.size
      · rw [if_pos hi, hi, h.active]
        exact iff_of_false (hnobody t) fun hholds => htook ⟨hholds.1, hholds.2.2⟩
      · rw [if_neg hi, h.active]
        rfl
  · intro t hchanged
    have hbefore : (s.world.host.terminal t).hooks ≠ {} := by
      have hsame : ((s.world.claim r s.world.slots.size).2.host.terminal t).hooks = (s.world.host.terminal t).hooks := by
        rw [hterminal t]
        split <;> rfl
      exact hsame ▸ hchanged
    obtain ⟨i, x, hx, hholds⟩ := h.changed t hbefore
    have hi : i ≠ s.world.slots.size := by
      rintro rfl
      rw [hnew] at hx
      cases hx
    exact ⟨i, x, (Function.update_of_ne hi _ _).trans hx, hholds⟩

/-- A step that leaves every session as it is, and the terminals but for the hooks of those held by sessions that have
given nothing back. -/
theorem same (h : s.Standing) {w : World} (hslots : w.slots.size = s.world.slots.size)
    (hactive : ∀ t, (w.host.terminal t).active = (s.world.host.terminal t).active)
    (hhooks : ∀ t, (w.host.terminal t).hooks = (s.world.host.terminal t).hooks ∨
      ∃ i x, s.seat i = some x ∧ x.Holds t ∧ x.resources.released = false) : Standing { s with world := w } where
  bound := fun i hi => h.bound i (hslots ▸ hi)
  id := h.id
  active := fun t i => by rw [hactive, h.active]; rfl
  changed := by
    intro t hchanged
    rcases hhooks t with hsame | hopen
    · exact h.changed t (hsame ▸ hchanged)
    · exact hopen

theorem hooks (h : s.Standing) {i : Nat} {x : Seat} (hseat : s.seat i = some x) (hopen : x.resources.released = false)
    (f : Hooks → Hooks) : (s.onHost (x.resources.changeHooks s.world.host f).2).Standing := by
  have hterminal := x.resources.changeHooks_terminal s.world.host f
  refine h.same rfl (fun t => ?_) (fun t => ?_)
  · show ((x.resources.changeHooks s.world.host f).2.terminal t).active = _
    rw [hterminal]
    split <;> rfl
  · by_cases hheld : x.resources.held? s.world.host = some t
    · exact .inr ⟨i, x, hseat, (h.held?_iff hseat t).mp hheld, hopen⟩
    · refine .inl ?_
      show ((x.resources.changeHooks s.world.host f).2.terminal t).hooks = _
      rw [hterminal, if_neg hheld]

/-- A step that takes a session further: it holds no terminal that it did not hold, and one that it does not hold any more
is free; the hooks of a terminal are as they were, or as they are by default. -/
theorem further (h : s.Standing) {i : Nat} {x y : Seat} {k : Host} (hseat : s.seat i = some x)
    (hid : y.resources.id = x.resources.id) (hholds : ∀ t, y.Holds t → x.Holds t)
    (hactive : ∀ t, (x.Holds t → y.Holds t) ∧ (k.terminal t).active = (s.world.host.terminal t).active ∨
      (x.Holds t ∧ ¬ y.Holds t) ∧ (k.terminal t).active = none)
    (hhooks : ∀ t, (k.terminal t).hooks = {} ∨ (k.terminal t).hooks = (s.world.host.terminal t).hooks ∧
      (x.Holds t → x.resources.released = false → y.Holds t ∧ y.resources.released = false)) :
    ((s.onHost k).reseat i y).Standing := by
  have hlt : i < s.world.slots.size := by
    refine Nat.lt_of_not_le fun hle => ?_
    rw [h.bound i hle] at hseat
    cases hseat
  have hself (t : Nat) : s.Holds i t ↔ x.Holds t := by
    rw [Holds, hseat]
    simp only [Option.some.injEq, exists_eq_left']
  refine { bound := ?_, id := ?_, active := ?_, changed := ?_ }
  · intro j hj
    exact (Function.update_of_ne (Nat.ne_of_gt (Nat.lt_of_lt_of_le hlt hj)) _ _).trans (h.bound j hj)
  · intro j z hz
    rcases seat_reseat hz with ⟨rfl, rfl⟩ | ⟨-, hold⟩
    · exact hid.trans (h.id hseat)
    · exact h.id hold
  · intro t j
    rw [holds_reseat]
    show (k.terminal t).active = some j ↔ if j = i then y.Holds t else s.Holds j t
    rcases hactive t with ⟨hstill, hsame⟩ | ⟨⟨hheld, hleft⟩, hnone⟩
    · rw [hsame, h.active]
      by_cases hj : j = i
      · rw [if_pos hj, hj, hself]
        exact ⟨hstill, hholds t⟩
      · rw [if_neg hj]
    · rw [hnone]
      refine iff_of_false (Option.some_ne_none j).symm ?_
      by_cases hj : j = i
      · rw [if_pos hj]
        exact hleft
      · rw [if_neg hj]
        intro hother
        have hi := (h.active t i).mpr ((hself t).mpr hheld)
        exact hj (Option.some.inj (((h.active t j).mpr hother).symm.trans hi))
  · intro t hchanged
    rcases hhooks t with hdefault | ⟨hsame, hstill⟩
    · exact absurd hdefault hchanged
    · obtain ⟨j, z, hz, hheld, hopen⟩ := h.changed t (hsame ▸ hchanged)
      by_cases hj : j = i
      · obtain rfl : z = x := Option.some.inj (hz.symm.trans (hj ▸ hseat))
        obtain ⟨hheld', hopen'⟩ := hstill hheld hopen
        exact ⟨i, y, Function.update_self .., hheld', hopen'⟩
      · exact ⟨j, z, (Function.update_of_ne hj _ _).trans hz, hheld, hopen⟩

theorem deed (h : s.Standing) {i : Nat} {x : Seat} (hseat : s.seat i = some x) (hopen : x.resources.released = false)
    (d : Deed) : ((s.onHost (d.run x.resources s.world.host).2).reseat i
      { x with resources := (d.run x.resources s.world.host).1 }).Standing := by
  by_cases hd : d = .release
  · have hterminal := x.resources.release_terminal s.world.host hopen
    have hrun : d.run x.resources s.world.host = (x.resources.release s.world.host).2 := by rw [hd]; rfl
    have hresources : (x.resources.release s.world.host).2.1
        = { x.resources with frames := {}, channels := [], slots := [], released := true } := by
      rw [Resources.release_eq _ _ hopen]
    rw [hrun, hresources]
    refine h.further hseat rfl (fun t hheld => hheld) (fun t => .inl ⟨fun hheld => hheld, ?_⟩) (fun t => ?_)
    · rw [hterminal]
      split <;> rfl
    · rw [hterminal]
      by_cases hheld : x.resources.held? s.world.host = some t
      · rw [if_pos hheld]
        exact .inl rfl
      · rw [if_neg hheld]
        exact .inr ⟨rfl, fun hx => absurd ((h.held?_iff hseat t).mpr hx) hheld⟩
  · obtain ⟨hterminals, hid, hterminal, hreleased⟩ := Deed.run_terminals hd x.resources s.world.host
    have hsame (t : Nat) : (d.run x.resources s.world.host).2.terminal t = s.world.host.terminal t := by
      rw [Host.terminal, Host.terminal, hterminals]
    have hholds (t : Nat) : Seat.Holds { x with resources := (d.run x.resources s.world.host).1 } t ↔ x.Holds t := by
      rw [Seat.Holds, Seat.Holds, hterminal]
    refine h.further hseat hid (fun t => (hholds t).mp) (fun t => .inl ⟨(hholds t).mpr, ?_⟩) (fun t => .inr ⟨?_, ?_⟩)
    · rw [hsame]
    · rw [hsame]
    · intro hheld _
      exact ⟨(hholds t).mpr hheld, hreleased.trans hopen⟩

theorem leave (h : s.Standing) {i : Nat} {x : Seat} (hseat : s.seat i = some x)
    (hreleased : x.resources.released = true) :
    ((s.onHost (x.resources.leave s.world.host)).reseat i { x with gone := true }).Standing := by
  have hterminal := x.resources.leave_terminal s.world.host
  have hgone (t : Nat) : ¬ Seat.Holds { x with gone := true } t := fun hheld => nomatch hheld.2.1
  refine h.further hseat rfl (fun t hheld => absurd hheld (hgone t)) (fun t => ?_) (fun t => .inr ⟨?_, ?_⟩)
  · rw [hterminal]
    by_cases hheld : x.resources.held? s.world.host = some t
    · rw [if_pos hheld]
      exact .inr ⟨⟨(h.held?_iff hseat t).mp hheld, hgone t⟩, rfl⟩
    · rw [if_neg hheld]
      exact .inl ⟨fun hx => absurd ((h.held?_iff hseat t).mpr hx) hheld, rfl⟩
  · rw [hterminal]
    split <;> rfl
  · intro _ hopen
    rw [hreleased] at hopen
    cases hopen

end Standing

/-- Asking for the end of a session changes no terminal. -/
theorem sigTerm_terminals (h : Host) (t : Nat) (requester : Option String) :
    (h.sigTerm t requester).2.terminals = h.terminals := by
  rw [Host.sigTerm]
  split <;> rfl

/-- **Whatever happens**, a terminal is held by the one session that took it and has not left, and its hooks are as they
are by default unless that session may still change them. -/
theorem standing_step {s s' : Hall} {move : Move} (h : s.Standing) (hstep : s.Step move s') : s'.Standing := by
  have hstart {r : Request} (hmove : move = .spawn r ∨ move = .run r) : s'.Standing := by
    obtain ⟨hr, ⟨-, -, rfl⟩ | rfl⟩ := step_start hstep hmove
    · exact h
    · exact h.start hr
  cases hstep with
  | refused => exact hstart (.inl rfl)
  | spawned => exact hstart (.inl rfl)
  | ran => exact hstart (.inr rfl)
  | hooks hseat hopen f => exact h.hooks hseat hopen f
  | deed hseat hopen d => exact h.deed hseat hopen d
  | leave hseat hreleased _ => exact h.leave hseat hreleased
  | signal t requester =>
    have hsame (k : Nat) : (s.world.host.sigTerm t requester).2.terminal k = s.world.host.terminal k := by
      rw [Host.terminal, Host.terminal, sigTerm_terminals]
    exact h.same rfl (fun k => congrArg Terminal.active (hsame k)) fun k => .inl (congrArg Terminal.hooks (hsame k))
  | elsewhere hslots _ hsame => exact h.same hslots (fun t => (hsame t).1) fun t => .inl (hsame t).2

theorem standing_of_course {start s : Hall} (hempty : start.Empty) (h : Course start s) : s.Standing := by
  induction h with
  | start =>
    have hnobody (i t : Nat) : ¬ start.Holds i t := by
      rintro ⟨x, hx, -⟩
      rw [hempty.seat] at hx
      cases hx
    exact
      { bound := fun i _ => hempty.seat i
        id := by
          intro i x hx
          rw [hempty.seat] at hx
          cases hx
        active := by
          intro t i
          rw [hempty.active]
          exact iff_of_false (Option.some_ne_none i).symm (hnobody i t)
        changed := fun t hchanged => absurd (hempty.hooks t) hchanged }
  | step _ hstep ih => exact standing_step ih hstep

/-- What is true of a hall, and of every step from it. -/
structure Orderly (s : Hall) : Prop where
  /-- A terminal's place is that of the session that holds it. -/
  slot : ∀ t i, (s.world.host.terminal t).active = some i ↔ s.Holds i t
  alone : ∀ t i j, s.Holds i t → s.Holds j t → i = j
  free : ∀ t, (s.world.host.terminal t).active = none → (s.world.host.terminal t).hooks = {}
  /-- Only the session that holds a terminal changes its hooks, or sets them back when it gives back what it holds. -/
  hooks : ∀ {move s'}, s.Step move s' → ∀ t, (s'.world.host.terminal t).hooks ≠ (s.world.host.terminal t).hooks →
    ∃ i, s.Holds i t ∧ ((∃ f, move = .hooks i f) ∨ move = .deed i .release)
  /-- A session that does not hold a terminal leaves it as it is when it ends. -/
  bystander : ∀ {move s'}, s.Step move s' → ∀ i t, move = .deed i .release ∨ move = .leave i → ¬ s.Holds i t →
    s'.world.host.terminal t = s.world.host.terminal t
  /-- Who asks for an end at a terminal ends the session that holds it, and a protected one only as the owner. -/
  signal : ∀ {t requester s'}, s.Step (.signal t requester) s' → ∀ i, s.world.host.isTerminated i = false →
    s'.world.host.isTerminated i = true →
    s.Holds i t ∧ ((s.world.host.terminal t).hooks.isProtected = true → requester = (s.world.host.terminal t).owner)
  /-- A session is refused exactly where another one holds the terminal, and then nothing changes. -/
  busy : ∀ r, (s.world.spawn r).1 = none ↔ ∃ t i, r.terminal = some t ∧ s.Holds i t
  refused : ∀ {r s'}, s.Step (.spawn r) s' → (s.world.spawn r).1 = none → s' = s

namespace Standing

variable {s s' : Hall} {move : Move}

theorem free (h : s.Standing) {t : Nat} (hfree : (s.world.host.terminal t).active = none) :
    (s.world.host.terminal t).hooks = {} := by
  refine Decidable.byContradiction fun hchanged => ?_
  obtain ⟨i, x, hx, hholds, -⟩ := h.changed t hchanged
  have hactive := (h.active t i).mpr ⟨x, hx, hholds⟩
  rw [hfree] at hactive
  cases hactive

theorem alone (h : s.Standing) {t i j : Nat} (hi : s.Holds i t) (hj : s.Holds j t) : i = j :=
  Option.some.inj (((h.active t i).mpr hi).symm.trans ((h.active t j).mpr hj))

theorem busy (h : s.Standing) (r : Request) :
    (s.world.spawn r).1 = none ↔ ∃ t i, r.terminal = some t ∧ s.Holds i t := by
  have hrefused : (s.world.spawn r).1 = none ↔ ¬ (s.world.claim r s.world.slots.size).1 = true := by
    rw [World.spawn_eq]
    split
    · rename_i hclaim
      exact iff_of_false (Option.some_ne_none _) (not_not_intro hclaim)
    · rename_i hclaim
      exact iff_of_true rfl hclaim
  rw [hrefused, World.claim_fst_iff]
  constructor
  · intro hbusy
    obtain ⟨t, hbusy⟩ := not_forall.mp hbusy
    obtain ⟨ht, hactive⟩ := Classical.not_imp.mp hbusy
    obtain ⟨i, hi⟩ := Option.ne_none_iff_exists'.mp hactive
    exact ⟨t, i, ht, (h.active t i).mp hi⟩
  · rintro ⟨t, i, ht, hholds⟩ hfree
    have hactive := (h.active t i).mpr hholds
    rw [hfree t ht] at hactive
    cases hactive

/-- The terminals after a session was started. -/
theorem start_hooks (hstep : s.Step move s') {r : Request} (hmove : move = .spawn r ∨ move = .run r) (t : Nat) :
    (s'.world.host.terminal t).hooks = (s.world.host.terminal t).hooks := by
  obtain ⟨hr, ⟨-, -, rfl⟩ | rfl⟩ := step_start hstep hmove
  · rfl
  · show ((s.world.claim r s.world.slots.size).2.host.terminal t).hooks = _
    rw [World.claim_terminal _ _ _ hr]
    split <;> rfl

theorem hooks_of_step (h : s.Standing) (hstep : s.Step move s') {t : Nat}
    (hchanged : (s'.world.host.terminal t).hooks ≠ (s.world.host.terminal t).hooks) :
    ∃ i, s.Holds i t ∧ ((∃ f, move = .hooks i f) ∨ move = .deed i .release) := by
  cases hstep with
  | @refused r hr hnone => exact absurd (start_hooks (.refused hr hnone) (.inl rfl) t) hchanged
  | @spawned r hr id hsome => exact absurd (start_hooks (.spawned hr hsome) (.inl rfl) t) hchanged
  | @ran r hr => exact absurd (start_hooks (.ran hr) (.inr rfl) t) hchanged
  | @hooks i x hseat hopen f =>
    have hterminal : (s.onHost (x.resources.changeHooks s.world.host f).2).world.host.terminal t = _ :=
      x.resources.changeHooks_terminal s.world.host f t
    rw [hterminal] at hchanged
    by_cases hheld : x.resources.held? s.world.host = some t
    · exact ⟨i, ⟨x, hseat, (h.held?_iff hseat t).mp hheld⟩, .inl ⟨f, rfl⟩⟩
    · rw [if_neg hheld] at hchanged
      exact absurd rfl hchanged
  | @deed i x hseat hopen d =>
    have hhost : ((s.onHost (d.run x.resources s.world.host).2).reseat i
        { x with resources := (d.run x.resources s.world.host).1 }).world.host = (d.run x.resources s.world.host).2 := rfl
    rw [hhost] at hchanged
    by_cases hd : d = .release
    · subst hd
      have hterminal : (Deed.run x.resources s.world.host .release).2.terminal t = _ :=
        x.resources.release_terminal s.world.host hopen t
      rw [hterminal] at hchanged
      by_cases hheld : x.resources.held? s.world.host = some t
      · exact ⟨i, ⟨x, hseat, (h.held?_iff hseat t).mp hheld⟩, .inr rfl⟩
      · rw [if_neg hheld] at hchanged
        exact absurd rfl hchanged
    · rw [Host.terminal, (Deed.run_terminals hd x.resources s.world.host).1] at hchanged
      exact absurd rfl hchanged
  | @leave i x hseat _ _ =>
    have hterminal : ((s.onHost (x.resources.leave s.world.host)).reseat i { x with gone := true }).world.host.terminal t
        = _ := x.resources.leave_terminal s.world.host t
    rw [hterminal] at hchanged
    split at hchanged <;> exact absurd rfl hchanged
  | signal k requester =>
    have hhost : (s.onHost (s.world.host.sigTerm k requester).2).world.host.terminal t = s.world.host.terminal t := by
      show (s.world.host.sigTerm k requester).2.terminal t = _
      rw [Host.terminal, sigTerm_terminals]
      rfl
    rw [hhost] at hchanged
    exact absurd rfl hchanged
  | elsewhere _ _ hsame => exact absurd (hsame t).2 hchanged

theorem bystander (h : s.Standing) (hstep : s.Step move s') {i t : Nat} (hmove : move = .deed i .release ∨ move = .leave i)
    (hnot : ¬ s.Holds i t) : s'.world.host.terminal t = s.world.host.terminal t := by
  have hheld {x : Seat} (hseat : s.seat i = some x) : x.resources.held? s.world.host ≠ some t :=
    fun hheld => hnot ⟨x, hseat, (h.held?_iff hseat t).mp hheld⟩
  cases hstep with
  | @deed j x hseat hopen d =>
    rcases hmove with hmove | hmove <;> cases hmove
    exact (x.resources.release_terminal s.world.host hopen t).trans (if_neg (hheld hseat))
  | @leave j x hseat _ _ =>
    rcases hmove with hmove | hmove <;> cases hmove
    exact (x.resources.leave_terminal s.world.host t).trans (if_neg (hheld hseat))
  | _ => rcases hmove with hmove | hmove <;> cases hmove

theorem signal (h : s.Standing) {t : Nat} {requester : Option String} (hstep : s.Step (.signal t requester) s') {i : Nat}
    (hbefore : s.world.host.isTerminated i = false) (hafter : s'.world.host.isTerminated i = true) :
    s.Holds i t ∧ ((s.world.host.terminal t).hooks.isProtected = true → requester = (s.world.host.terminal t).owner) := by
  cases hstep
  have hflag : (s.world.host.sigTerm t requester).2.isTerminated i = true := hafter
  rw [Host.sigTerm] at hflag
  cases htarget : (s.world.host.terminal t).target? requester with
  | none =>
    rw [htarget, hbefore] at hflag
    cases hflag
  | some j =>
    rw [htarget, Host.isTerminated_terminate, hbefore, Bool.or_false, decide_eq_true_eq] at hflag
    rw [Terminal.target?, ← hflag] at htarget
    split at htarget
    · cases htarget
    · rename_i hmay
      refine ⟨(h.active t i).mp htarget, fun hprotected => ?_⟩
      rw [hprotected, Bool.true_and, bne_iff_ne, not_not] at hmay
      exact hmay

end Standing

/-- **Sessions at their terminals.**  Whatever sessions are started, refused or let go on without a terminal that is
taken, and however their steps and the requests of others to end them come in between: every terminal is held by at most
one session, only that session changes its hooks, a terminal that nobody holds has its hooks as they are by default, a
session that does not hold its terminal leaves it as it is when it ends, and no session is ended at a terminal but the one
that holds it, and a protected one by nobody but the owner. -/
theorem hall_of_course {start s : Hall} (hempty : start.Empty) (h : Course start s) : s.Orderly := by
  have hstanding := standing_of_course hempty h
  exact
    { slot := hstanding.active
      alone := fun t i j => hstanding.alone
      free := fun t => hstanding.free
      hooks := fun hstep t => hstanding.hooks_of_step hstep
      bystander := fun hstep i t => hstanding.bystander hstep
      signal := fun hstep i => hstanding.signal hstep
      busy := hstanding.busy
      refused := by
        intro r s' hstep hnone
        cases hstep with
        | refused => rw [World.spawn_of_none hnone]
        | spawned _ hsome => exact absurd (hsome.symm.trans hnone) (Option.some_ne_none _) }

/-- One terminal that nobody holds. -/
def vacant : Hall where
  world := { host := { terminals := #[{ owner := some "owner" }] } }

/-- A session at the terminal. -/
def atTerminal : Request := { source := .text "", terminal := some 0 }

/-- A session takes the terminal and protects it, and another one is let go on without it. -/
theorem hall_of_course_bystander : vacant.Empty ∧ ∃ s, Course vacant s ∧ s.Holds 0 0 ∧ (s.seat 1).isSome = true ∧
    (s.world.host.terminal 0).hooks.isProtected = true ∧ s.Orderly := by
  have hempty : vacant.Empty :=
    { seat := fun _ => rfl
      active := fun t => by cases t <;> rfl
      hooks := fun t => by cases t <;> rfl }
  have hplaced (s : Hall) (hsize : 0 < s.world.host.terminals.size) : atTerminal.Placed s.world.host :=
    fun t ht => Option.some.inj ht ▸ hsize
  have hfirst : vacant.Step (.spawn atTerminal) (vacant.seated atTerminal 0 (vacant.world.spawn atTerminal).2) :=
    .spawned (hplaced vacant Nat.zero_lt_one) rfl
  have hspawned : Course vacant _ := Course.start.step hfirst
  have hran := hspawned.step (.ran (r := atTerminal) (hplaced _ Nat.zero_lt_one))
  have hprotected := hran.step (.hooks (i := 0) (x := { resources := { id := 0, terminal := some 0 }, took := true }) rfl rfl
    fun hooks => { hooks with isProtected := true })
  have horderly := hall_of_course hempty hprotected
  exact ⟨hempty, _, hprotected, (horderly.slot 0 0).mp rfl, rfl, rfl, horderly⟩

end Hall

end ScriptHost

import ScriptHost.Proofs.Session.Signals

/-!
# How deep the termination signal is recognised

Layers lie around the signal when it comes from afar: each host function that it passes through puts one around it, and
one more with its name if it does not recognise the signal any more.

* `Layer`, `Fault.under` — layers around a failure;
* **`Fault.isInterrupt_under_iff`** — the signal is recognised under fewer than sixteen layers, whatever they are;
* `surfaced` — the failure of nested host functions of which the innermost raises the signal;
* **`tags_surfaced`** — which of them put their names on it;
* `Nested` — host functions each of which calls the next one and fails as that does;
* **`Reaches.nested`** — how they fail on a machine;
* **`recognition_limits`** — what the session gets of such a signal.
-/

namespace ScriptHost

open Script

/-! ### Layers -/

/-- A layer around a failure. -/
inductive Layer where
  | callback (trace : String)
  | context (text : String)
  | invocation (function : String)
  | carried

namespace Layer

/-- A failure with a layer around it. -/
def around : Layer → Fault → Fault
  | callback trace, f => .callback trace f
  | context text, f => .context text f
  | invocation function, f => .invocation function f
  | carried, f => .carried f

theorem layers?_around (l : Layer) (f : Fault) : (l.around f).layers? = f.layers?.map (· + 1) := by
  cases l <;> rfl

end Layer

namespace Fault

/-- A failure with layers around it, the outermost first. -/
def under (ls : List Layer) (f : Fault) : Fault := ls.foldr Layer.around f

theorem layers?_under (ls : List Layer) : (under ls .signal).layers? = some ls.length := by
  induction ls with
  | nil => rfl
  | cons l rest ih =>
    show (l.around (under rest .signal)).layers? = _
    rw [Layer.layers?_around, ih]
    rfl

/-- **The signal under layers** of any kinds is recognised exactly if they are fewer than sixteen. -/
theorem isInterrupt_under_iff (ls : List Layer) : (under ls .signal).isInterrupt = true ↔ ls.length < maxDepth :=
  isInterrupt_iff_of_layers (layers?_under ls)

/-- The names of host functions that a failure is tagged with, the outermost first. -/
def tags : Fault → List String
  | .callback _ cause => tags cause
  | .context _ cause => tags cause
  | .invocation function source => function :: tags source
  | .carried inner => tags inner
  | _ => []

end Fault

/-! ### Nested host functions -/

/-- The failure of nested host functions, each with its name and the trace at its call, the outermost first, when the
innermost raises the signal. -/
def surfaced : List (String × String) → Fault
  | [] => .signal
  | (name, trace) :: rest => .callback trace ((surfaced rest).tagged name)

/-- Each function puts one layer around the signal, and another one if it does not recognise it. -/
theorem layers?_surfaced (calls : List (String × String)) :
    (surfaced calls).layers? = some (calls.length + (calls.length - Fault.maxDepth)) := by
  induction calls with
  | nil => rfl
  | cons call rest ih =>
    have hsignal := Fault.isInterrupt_iff_of_layers ih
    rw [surfaced, Fault.layers?, Fault.tagged, List.length_cons]
    by_cases hdeep : rest.length < Fault.maxDepth
    · rw [if_pos (hsignal.mpr (by omega)), ih, Option.map_some]
      congr 1
      omega
    · rw [if_neg fun h => hdeep (by have := hsignal.mp h; omega), Fault.layers?, ih, Option.map_some, Option.map_some]
      congr 1
      omega

theorem isInterrupt_surfaced_iff (calls : List (String × String)) :
    (surfaced calls).isInterrupt = true ↔ calls.length < Fault.maxDepth := by
  rw [Fault.isInterrupt_iff_of_layers (layers?_surfaced calls)]
  omega

/-- **The names that the signal gets** are those of the functions around the sixteen innermost ones. -/
theorem tags_surfaced (calls : List (String × String)) :
    (surfaced calls).tags = (calls.take (calls.length - Fault.maxDepth)).map Prod.fst := by
  induction calls with
  | nil => rfl
  | cons call rest ih =>
    have hsignal := isInterrupt_surfaced_iff rest
    rw [surfaced, Fault.tags, Fault.tagged, List.length_cons]
    by_cases hdeep : rest.length < Fault.maxDepth
    · rw [if_pos (hsignal.mpr hdeep), ih, Nat.sub_eq_zero_of_le (Nat.le_of_lt hdeep), Nat.sub_eq_zero_of_le hdeep]
      rfl
    · rw [if_neg fun h => hdeep (hsignal.mp h), Fault.tags, ih, Nat.succ_sub (Nat.le_of_not_lt hdeep), List.take_succ_cons]
      rfl

/-! ### Nested host functions on a machine -/

namespace Script.Machine

variable {σ : Type}

/-- Host functions of some names, the outermost first, of which each one calls the next and fails as that does, and the
innermost raises the signal.  The outermost is called with some arguments. -/
inductive Nested (hosts : Array (Array Value → Act σ (Array Value))) : List String → Nat → Array Value → Prop
  | raises {name : String} {i : Nat} {args : Array Value} {body : Array Value → Act σ (Array Value)}
      (hbody : hosts[i]? = some body) (hact : ∀ h s, body args h s = Act.tagging name (Act.raise (.host .signal)) h s) :
      Nested hosts [name] i args
  | calls {name : String} {names : List String} {i next : Nat} {args given : Array Value}
      {body after : Array Value → Act σ (Array Value)} (hbody : hosts[i]? = some body)
      (hact : ∀ h s, body args h s = Act.tagging name (Act.callScript (.native (.host next)) given >>= after) h s)
      (hfew : given.size ≤ 255) (hnext : Nested hosts names next given) : Nested hosts (name :: names) i args

/-- A host function begins, from which others are nested so deep. -/
structure Roomy (m : Machine σ) (n : Native σ) (deep : Nat) : Prop where
  guard : n.guard = none
  finish : n.finish ≠ .stop
  depth : n.depth + deep < maxDepth
  room : n.top + 300 * deep ≤ maxSlots
  closes : m.mustClose n.top = false

/-- A host function has failed with the signal, which has come through host functions of some names. -/
structure Surfaced (names : List String) (callers : List (Activation σ)) (n : Native σ) (m m' : Machine σ) : Prop where
  raised : ∃ id calls, m'.control = .raise (.failure id) ∧ calls.map Prod.fst = names ∧
    m'.heap.failures.getD id default = .fault (surfaced calls)
  callers : ∃ w, m'.callers = .native w :: callers ∧ w.guard = none ∧ w.top = n.top ∧ w.depth = n.depth
  closes : m'.toClose = m.toClose
  hosts : m'.hosts = m.hosts

/-- A host function that raises a failure puts the trace at its call around it. -/
theorem settle_host (m : Machine σ) (n : Native σ) (f : Fault) (h : Heap) (s : σ) :
    ∃ trace, settle m n (.raised (.host f) h s) = { m.suspended with
      heap := { h with failures := h.failures.push (.fault (.callback trace f)) }, host := s
      callers := .native n :: m.suspended.callers, control := .raise (.failure h.failures.size) } := by
  obtain ⟨heap, host, hosts, interrupted, frame, stack, top, callers, control⟩ := m
  cases control <;> exact ⟨_, rfl⟩

/-- A host function fails with the signal, which has come through others, and puts its layers around it. -/
theorem surfaced_settle (m : Machine σ) {n : Native σ} (hguard : n.guard = none) (name : String) (calls : List (String × String))
    (h : Heap) (s : σ) :
    Surfaced (name :: calls.map Prod.fst) m.suspended.callers n m
      (settle m n (.raised (.host ((surfaced calls).tagged name)) h s)) := by
  obtain ⟨trace, hsettled⟩ := settle_host m n ((surfaced calls).tagged name) h s
  rw [hsettled]
  refine
    { raised := ⟨_, (name, trace) :: calls, rfl, rfl, ?_⟩
      callers := ⟨n, rfl, hguard, rfl, rfl⟩
      closes := m.suspended_same.1
      hosts := m.suspended_same.2 }
  dsimp only
  rw [Array.getD_eq_getD_getElem?, Array.getElem?_push_size]
  rfl

/-- A host function that calls another one waits for it. -/
theorem settle_call (m : Machine σ) (n : Native σ) (f : Value) (args : Array Value) (mode : CallMode)
    (k : Reply → Heap → σ → Outcome σ (Array Value)) (h : Heap) (s : σ) :
    settle m n (.call f args mode k h s) = { m.suspended with
      heap := h, host := s, control := .enter f args .reply
      callers := .native { n with
        guard := mode.guarded.map fun handler => { handler, hookOn := m.hookOn }
        pending := .reply k, yieldable := n.yieldable && mode.yieldable } :: m.suspended.callers } := by
  obtain ⟨heap, host, hosts, interrupted, frame, stack, top, callers, control⟩ := m
  cases control <;> rfl

/-- A failure of what a host function calls becomes its own, with its name on it. -/
theorem tagging_callScript (name : String) (f : Value) (args : Array Value) (after : Array Value → Act σ (Array Value))
    (h : Heap) (s : σ) :
    ∃ k, Act.tagging name (Act.callScript f args >>= after) h s = .call f args ⟨some .trace, false⟩ k h s ∧
      ∀ id e h' s', h'.failures.getD id default = .fault e →
        k (.failed (.failure id)) h' s' = .raised (.host (e.tagged name)) h' s' := by
  refine ⟨_, rfl, fun id e h' s' hid => ?_⟩
  have hfailure : h'.hostFailure (.failure id) = .fault e := hid
  simp only [bind, Outcome.andThen, Act.readHeap, hfailure]
  rfl

variable [Inhabited σ]

/-- A host function that another one calls begins. -/
theorem enter_host {m : Machine σ} {w : Native σ} {rest : List (Activation σ)} (hcallers : m.callers = .native w :: rest)
    {args : Array Value} (hdepth : w.depth + 1 < maxDepth) (hroom : w.top + 1 + args.size + nativeSlots ≤ maxSlots) (i : Nat) :
    m.enter (.native (.host i)) args .reply = settle { m with heap := default, host := default }
      { self := some (.native (.host i)), top := w.top + 1 + args.size, finish := .reply, depth := w.depth + 1
        yieldable := w.yieldable }
      (m.nativeAct (.host i) args m.heap m.host) := by
  have hdeep : ¬ maxHandlerDepth ≤ w.depth + 1 := by
    have : maxDepth ≤ maxHandlerDepth := by decide
    omega
  have hlimit : ¬ (w.depth + 1 == maxDepth) = true := by
    rw [beq_iff_eq]
    omega
  have hfits : m.exceeds (w.top + 1 + args.size + nativeSlots) = false := exceeds_eq_false hroom
  have hinner : m.innermost = (w.top, w.depth, w.yieldable) := by
    rw [innermost, hcallers]
  simp only [Machine.enter, hinner, if_neg hdeep, hlimit]
  rw [maxCallChain, callable]
  simp only [hfits, Bool.false_eq_true, if_false, perform]

/-- A failure is an answer to the host function that waits for it. -/
theorem answer_waiting {m : Machine σ} {w : Native σ} {rest : List (Activation σ)} {k : Reply → Heap → σ → Outcome σ (Array Value)}
    (hcallers : m.callers = .native w :: rest) (hfinish : w.finish ≠ .stop) (hpending : w.pending = .reply k) (r : Reply) :
    m.answer r = settle { m with callers := rest, control := .close, heap := default, host := default }
      { w with guard := none, pending := .never } (k r m.heap m.host) := by
  simp only [answer, hcallers, hpending]
  cases hf : w.finish with
  | stop => exact absurd hf hfinish
  | _ => rfl

/-- A host function waits for another one, which fails with the signal, and fails in its turn. -/
theorem Reaches.surfaces {m m₁ m₂ : Machine σ} {n n' w : Native σ} {name : String} {names : List String}
    {k : Reply → Heap → σ → Outcome σ (Array Value)} (hroomy : Roomy m n (names.length + 1)) (hsome : 0 < names.length)
    (hw : w = { n with guard := some ⟨.trace, m.hookOn⟩, pending := .reply k, yieldable := n.yieldable && false })
    (hk : ∀ id e h' s', h'.failures.getD id default = .fault e →
      k (.failed (.failure id)) h' s' = .raised (.host (e.tagged name)) h' s')
    (hclose : m₁.toClose = m.toClose) (hsame : m₁.hosts = m.hosts) (hdepth : n'.depth = n.depth + 1)
    (hsurfaced : Surfaced names (.native w :: m.suspended.callers) n' m₁ m₂) :
    Reaches 4 m₂ (Surfaced (name :: names) m.suspended.callers n m) := by
  obtain ⟨⟨id, calls, hcontrol, rfl, hfault⟩, ⟨w', hcallers, hguard', -, hdepth'⟩, hclose₂, hhosts₂⟩ := hsurfaced
  obtain ⟨-, hfinish, hbelow, -, hcloses⟩ := hroomy
  have hdeep : m₂.innermost.2.1 + 1 < maxDepth := by
    rw [innermost, hcallers]
    show w'.depth + 1 < maxDepth
    omega
  have habove : m₂.callers = [.native w'] ++ .native w :: m.suspended.callers := hcallers
  have hguardless : ∀ a ∈ [Activation.native w'], Guardless a := by
    intro a ha
    rw [List.mem_singleton.mp ha]
    exact hguard'
  have htop : w.top = n.top := by rw [hw]
  -- the failure is an answer to the function that waits
  refine Reaches.trans (k := 1) (Reaches.guarded hcontrol habove hguardless (by rw [hw]) hdeep
    (mustClose_mono hcloses (Nat.le_of_eq htop.symm) (hclose₂.trans hclose))) fun m₃ hm₃ => ?_
  obtain ⟨stack, cells, opened, rfl⟩ := hm₃
  refine Reaches.advance trivial (Reaches.here ?_)
  let m₃ : Machine σ := { m₂ with
    heap := { m₂.heap with cells }, stack, opened, callers := .native w :: m.suspended.callers
    control := .answer (.failed (.failure id)), hookOn := m.hookOn }
  show Surfaced (name :: calls.map Prod.fst) m.suspended.callers n m (m₃.answer (.failed (.failure id)))
  subst hw
  rw [answer_waiting (m := m₃) rfl hfinish rfl, hk id (surfaced calls) m₃.heap m₃.host hfault]
  have hfails := surfaced_settle
    { m₃ with callers := m.suspended.callers, control := .close, heap := default, host := default }
    (n := { n with guard := none, pending := .never, yieldable := n.yieldable && false }) rfl name calls m₃.heap m₃.host
  exact
    { raised := hfails.raised
      callers := hfails.callers
      closes := hfails.closes.trans (hclose₂.trans hclose)
      hosts := hfails.hosts.trans (hhosts₂.trans hsame) }

/-- **Nested host functions** fail with the signal under their layers. -/
theorem Reaches.nested {m : Machine σ} {n : Native σ} {names : List String} {i : Nat} {args : Array Value}
    {hosts : Array (Array Value → Act σ (Array Value))} (hnested : Nested hosts names i args) (hhosts : m.hosts = hosts)
    (hroomy : Roomy m n names.length) (h : Heap) (s : σ) :
    Reaches (5 * names.length) (settle m n (m.nativeAct (.host i) args h s)) (Surfaced names m.suspended.callers n m) := by
  induction hnested generalizing m n h s with
  | @raises name i args body hbody hact =>
    have hbegun : m.nativeAct (.host i) args h s = .raised (.host .signal) h s := by
      rw [nativeAct, hhosts, hbody]
      exact (hact h s).trans rfl
    rw [hbegun]
    exact Reaches.here (surfaced_settle m hroomy.guard name [] h s)
  | @calls name names i next args given body after hbody hact hfew hnext ih =>
    obtain ⟨-, -, hdepth, hroom, hcloses⟩ := id hroomy
    rw [List.length_cons] at hdepth hroom hroomy ⊢
    obtain ⟨k, hbegun, hk⟩ := tagging_callScript name (.native (.host next)) given after h s
    have hcalled : m.nativeAct (.host i) args h s = .call (.native (.host next)) given ⟨some .trace, false⟩ k h s := by
      rw [nativeAct, hhosts, hbody]
      exact (hact h s).trans hbegun
    have hslots : nativeSlots = 20 := rfl
    let w : Native σ := { n with
      guard := some ⟨.trace, m.hookOn⟩, pending := .reply k, yieldable := n.yieldable && false }
    let m₁ : Machine σ := { m.suspended with
      heap := h, host := s, control := .enter (.native (.host next)) given .reply, callers := .native w :: m.suspended.callers }
    have hclose : m₁.toClose = m.toClose := m.suspended_same.1
    have hsame : m₁.hosts = m.hosts := m.suspended_same.2
    rw [hcalled, settle_call]
    show Reaches _ m₁ _
    -- the next function begins, and fails
    let n' : Native σ :=
      { self := some (.native (.host next)), top := n.top + 1 + given.size, finish := .reply, depth := n.depth + 1
        yieldable := w.yieldable }
    have hentered : m₁.enter (.native (.host next)) given .reply
        = settle { m₁ with heap := default, host := default } n' (m₁.nativeAct (.host next) given h s) :=
      enter_host (m := m₁) (w := w) rfl (by dsimp only [w]; omega) (by dsimp only [w]; omega) next
    have hnested : Reaches (5 * names.length) m₁.advance (Surfaced names m₁.callers n' m₁) := by
      show Reaches _ (m₁.enter (.native (.host next)) given .reply) _
      rw [hentered]
      refine (ih (m := { m₁ with heap := default, host := default }) (n := n') (hsame.trans hhosts) ?_ h s).imp
        fun m' hm' => ⟨hm'.raised, hm'.callers, hm'.closes, hm'.hosts⟩
      exact
        { guard := rfl
          finish := nofun
          depth := by dsimp only [n']; omega
          room := by dsimp only [n']; omega
          closes := mustClose_mono hcloses (by dsimp only [n']; omega) hclose }
    have hsome : 0 < names.length := by
      cases hnext <;> exact Nat.succ_pos _
    have hbetween : IsBetween m₁.control := trivial
    -- and so does this one
    refine (Reaches.advance hbetween (hnested.trans (k := 4) fun m₂ hm₂ => ?_)).mono (by omega)
    exact Reaches.surfaces hroomy hsome rfl hk hclose hsame rfl hm₂

end Script.Machine

/-! ### What the session gets -/

/-- **How deep the signal is recognised.**  Under layers of any kinds it is recognised exactly if they are fewer than sixteen.
When nested host functions fail with it, the session gets it with the names of those around the sixteen innermost ones, so
without any if they are at most sixteen, and it is interrupted exactly if they are fewer. -/
theorem recognition_limits {σ : Type} [Inhabited σ] {m : Machine σ} {n : Native σ} {names : List String} {i : Nat}
    {args : Array Value} (hnested : Machine.Nested m.hosts names i args) (hroomy : Machine.Roomy m n names.length)
    (hcloses : m.toClose = [])
    (hcallers : ∃ inner, (∀ a ∈ inner, Machine.Guardless a) ∧ m.suspended.callers = inner ++ [.native Machine.hostCall]) :
    (∀ ls : List Layer, (Fault.under ls .signal).isInterrupt = true ↔ ls.length < Fault.maxDepth) ∧
      Machine.Reaches (5 * names.length + 4) (Machine.settle m n (m.nativeAct (.host i) args m.heap m.host)) fun m' =>
        ∃ v f, m'.control = .stopped (.failed v) ∧ m'.heap.hostFailure v = .fault f ∧
          f.tags = names.take (names.length - Fault.maxDepth) ∧ (f.tags = [] ↔ names.length ≤ Fault.maxDepth) ∧
          (Ending.ofFailure (.fault f) = .signal ↔ names.length < Fault.maxDepth) := by
  refine ⟨Fault.isInterrupt_under_iff, ?_⟩
  obtain ⟨inner, hinner, houter⟩ := hcallers
  have hsome : 0 < names.length := by
    cases hnested <;> exact Nat.succ_pos _
  refine (Machine.Reaches.nested hnested rfl hroomy m.heap m.host).trans fun m₁ hm₁ => ?_
  obtain ⟨⟨id, calls, hcontrol, hcalls, hfault⟩, ⟨w, hwaiting, hguard, -, hdepth⟩, hclose, -⟩ := hm₁
  have hunheld : Machine.Unheld m₁ id := by
    refine ⟨hcontrol, ⟨.native w :: inner, ?_, by rw [hwaiting, houter]; rfl⟩, ?_⟩
    · intro a ha
      rcases List.mem_cons.mp ha with rfl | ha
      · exact hguard
      · exact hinner a ha
    · rw [Machine.innermost, hwaiting]
      show w.depth + 1 < Script.maxDepth
      have := hroomy.depth
      omega
  refine (Machine.Reaches.signalled hunheld (hclose.trans hcloses)).imp fun m₂ hm₂ => ?_
  obtain ⟨hstopped, hfailures, -⟩ := hm₂
  have htags : (surfaced calls).tags = names.take (names.length - Fault.maxDepth) := by
    rw [tags_surfaced, ← hcalls, List.map_take, List.length_map]
  have hdeep : calls.length = names.length := by
    rw [← hcalls, List.length_map]
  refine ⟨.failure id, surfaced calls, hstopped, by rw [Heap.hostFailure, hfailures, hfault], htags, ?_, ?_⟩
  · rw [htags, List.take_eq_nil_iff]
    constructor
    · rintro (hzero | rfl)
      · omega
      · exact Nat.zero_le _
    · exact fun hle => .inl (Nat.sub_eq_zero_of_le hle)
  · rw [← hdeep, ← isInterrupt_surfaced_iff, Ending.ofFailure]
    cases (surfaced calls).isInterrupt with
    | true => exact ⟨fun _ => rfl, fun _ => rfl⟩
    | false => exact ⟨fun h => absurd h Ending.noConfusion, fun h => absurd h Bool.noConfusion⟩

/-- Under sixteen layers the signal is not recognised, and a function that gets it so puts its name on it. -/
theorem signal_unrecognised_sixteen :
    (Fault.under (List.replicate 16 (.context "c")) .signal).isInterrupt = false ∧
      ((Fault.under (List.replicate 16 (.context "c")) .signal).tagged "relay").tags = ["relay"] :=
  ⟨rfl, rfl⟩

/-- A function that raises the signal, and functions that call one another. -/
def relay : Nat → Array Value → Act Unit (Array Value)
  | 0, _ => Act.tagging "relay" (Act.raise (.host .signal))
  | k + 1, _ => Act.tagging "relay" (Act.callScript (.native (.host k)) #[] >>= pure)

/-- A machine that calls the outermost of seventeen such functions. -/
def relaying : Machine Unit :=
  { heap := {}, host := (), hosts := Array.ofFn fun k : Fin 17 => relay k, interrupted := fun _ => false
    callers := [.native Machine.hostCall], control := .enter (.native (.host 16)) #[] .reply }

theorem relaying_nested (k : Nat) (hk : k < 17) : Machine.Nested relaying.hosts (List.replicate (k + 1) "relay") k #[] := by
  have hbody (j : Nat) (hj : j < 17) : relaying.hosts[j]? = some (relay j) := by
    rw [relaying, Array.getElem?_ofFn, dif_pos hj]
  induction k with
  | zero => exact .raises (hbody 0 hk) fun _ _ => rfl
  | succ k ih => exact .calls (hbody (k + 1) hk) (fun _ _ => rfl) (Nat.zero_le _) (ih (by omega))

theorem recognition_limits_relaying :
    let n : Native Unit := { self := none, top := 2, finish := .reply, depth := 1, yieldable := false }
    Machine.Reaches 89 (Machine.settle relaying n (relaying.nativeAct (.host 16) #[] {} ())) fun m' =>
      ∃ v f, m'.control = .stopped (.failed v) ∧ m'.heap.hostFailure v = .fault f ∧ f.tags = ["relay"] := by
  intro n
  have hroomy : Machine.Roomy relaying n (List.replicate 17 "relay").length := ⟨rfl, nofun, by decide, by decide, rfl⟩
  have hcallers : ∃ inner, (∀ a ∈ inner, Machine.Guardless a) ∧ relaying.suspended.callers = inner ++ [.native Machine.hostCall] :=
    ⟨[], fun _ ha => absurd ha List.not_mem_nil, rfl⟩
  refine (recognition_limits (relaying_nested 16 (by decide)) hroomy rfl hcallers).2.imp fun m' ⟨v, f, hstopped, hfault, htags, _⟩ => ?_
  exact ⟨v, f, hstopped, hfault, htags⟩

end ScriptHost

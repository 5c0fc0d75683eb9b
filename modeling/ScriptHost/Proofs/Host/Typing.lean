import ScriptHost.Proofs.Binding.Listening
import ScriptHost.Proofs.Host.Tables

/-!
# Lines typed at a terminal

Lines are typed one after the other while the hooks of the terminal are now these and now those.

* `IsControl` — a line that is taken for a control sequence, by what it looks like;
* `Typed`, `Host.typed`, `Host.typedAll` — a typed line and what it does to the host;
* `Typed.pushed?` — the line that is put into the input, if one is;
* **`typed_of_pushed`**, `typed_of_not_pushed` — one line;
* **`pushed_of_typed`** — what a sequence of lines leaves in the input and elsewhere, and which lines are
  there as they were typed;
* `long_control_lost` — a line that is lost although it is more than a control sequence.
-/

namespace ScriptHost

open Script

/-- A line begins with a circumflex and goes on. -/
def IsControl (line : String) : Prop := ∃ code rest, line.toList = '^' :: code :: rest

/-- A line that someone types while the hooks of the terminal are these. -/
structure Typed where
  hooks : Hooks
  line : String
  source : String

/-- The line that is put into the input: the typed one, unless it is a control sequence; of that the circumflex and the
character after it, and only while control sequences are delivered as text. -/
def Typed.pushed? (x : Typed) : Option String :=
  match x.line.toList with
  | '^' :: code :: _ => if x.hooks.rawInput then some (String.ofList ['^', code]) else none
  | _ => some x.line

theorem ofLine_eq_control {line : String} {code : Char} {rest : List Char} (h : line.toList = '^' :: code :: rest) :
    Delivery.ofLine line = .control code := by
  simp only [Delivery.ofLine, h]

theorem ofLine_eq_text {line : String} (h : ¬ IsControl line) : Delivery.ofLine line = .text line := by
  rw [Delivery.ofLine]
  split
  · exact absurd ⟨_, _, ‹_›⟩ h
  · rfl

namespace Typed

theorem pushed?_text {x : Typed} (h : ¬ IsControl x.line) : x.pushed? = some x.line := by
  rw [pushed?]
  split
  · exact absurd ⟨_, _, ‹_›⟩ h
  · rfl

theorem pushed?_control {x : Typed} {code : Char} {rest : List Char} (h : x.line.toList = '^' :: code :: rest) :
    x.pushed? = if x.hooks.rawInput then some (String.ofList ['^', code]) else none := by
  simp only [pushed?, h]

/-- A line is put into the input unless it is a control sequence that is not delivered as text. -/
theorem isSome_pushed?_iff (x : Typed) : x.pushed?.isSome = true ↔ ¬ IsControl x.line ∨ x.hooks.rawInput = true := by
  by_cases hcontrol : IsControl x.line
  · obtain ⟨code, rest, hline⟩ := hcontrol
    rw [pushed?_control hline]
    cases x.hooks.rawInput with
    | true => exact ⟨fun _ => .inr rfl, fun _ => rfl⟩
    | false => exact ⟨nofun, fun h => absurd ⟨code, rest, hline⟩ (h.resolve_right nofun)⟩
  · rw [pushed?_text hcontrol]
    exact ⟨fun _ => .inl hcontrol, fun _ => rfl⟩

/-- **Which lines are put into the input as they were typed**: those that are no control sequences, and of the others
those that have nothing after the second character, while control sequences are delivered as text. -/
theorem pushed?_eq_line_iff (x : Typed) :
    x.pushed? = some x.line ↔ ¬ IsControl x.line ∨ x.hooks.rawInput = true ∧ x.line.toList.length = 2 := by
  by_cases hcontrol : IsControl x.line
  · obtain ⟨code, rest, hline⟩ := hcontrol
    have hsame : String.ofList ['^', code] = x.line ↔ x.line.toList.length = 2 := by
      rw [← String.toList_inj, String.toList_ofList, hline]
      cases rest with
      | nil => exact ⟨fun _ => rfl, fun _ => rfl⟩
      | cons c rest => exact ⟨nofun, nofun⟩
    rw [pushed?_control hline]
    cases x.hooks.rawInput with
    | true => exact ⟨fun h => .inr ⟨rfl, hsame.mp (Option.some.inj h)⟩,
        fun h => congrArg some (hsame.mpr (h.resolve_left fun h => h ⟨code, rest, hline⟩).2)⟩
    | false => exact ⟨nofun, fun h => absurd ⟨code, rest, hline⟩ (h.resolve_right fun h => absurd h.1 nofun)⟩
  · exact ⟨fun _ => .inl hcontrol, fun _ => pushed?_text hcontrol⟩

end Typed

/-! ### One line -/

namespace Host

theorem onTerminal_onTerminal (h : Host) (t : Nat) (f g : Terminal → Terminal) :
    (h.onTerminal t f).onTerminal t g = h.onTerminal t (g ∘ f) := by
  have hterminals : (h.terminals.modify t f).modify t g = h.terminals.modify t (g ∘ f) := by
    apply Array.ext_getElem?
    intro i
    simp only [Array.getElem?_modify]
    split
    · cases h.terminals[i]? <;> rfl
    · rfl
  show ({ h with terminals := (h.terminals.modify t f).modify t g } : Host) = { h with terminals := h.terminals.modify t (g ∘ f) }
  rw [hterminals]

/-- A line is typed while the hooks of the terminal are these. -/
def typed (h : Host) (t : Nat) (x : Typed) : Host :=
  (h.onTerminal t fun y => { y with hooks := x.hooks }).deliver t x.line x.source

/-- Lines are typed one after the other. -/
def typedAll (h : Host) (t : Nat) (xs : List Typed) : Host := xs.foldl (·.typed t) h

variable {h : Host} {t : Nat} {x : Typed}

/-- A control sequence that is not delivered as text changes no terminal. -/
theorem control_terminals (code : Char) (source : String) (hraw : (h.terminal t).hooks.rawInput = false) :
    (h.control t code source).terminals = h.terminals := by
  rw [control, if_neg (by rw [hraw]; decide)]
  split
  · rw [sigTerm]
    split <;> rfl
  · split <;> rfl

theorem hooks_before (ht : t < h.terminals.size) :
    ((h.onTerminal t fun y => { y with hooks := x.hooks }).terminal t).hooks = x.hooks := by
  rw [terminal_onTerminal, if_pos ⟨rfl, ht⟩]

/-- **A line that is put into the input** does nothing else. -/
theorem typed_of_pushed (ht : t < h.terminals.size) {line : String} (hx : x.pushed? = some line) :
    h.typed t x = h.onTerminal t fun y =>
      { y with hooks := x.hooks, input := y.input.push (Bytes.ofString (line ++ "\n")) } := by
  by_cases hcontrol : IsControl x.line
  · obtain ⟨code, rest, hline⟩ := hcontrol
    rw [Typed.pushed?_control hline] at hx
    have hraw : x.hooks.rawInput = true := by
      cases hraw : x.hooks.rawInput with
      | true => rfl
      | false =>
        rw [hraw] at hx
        cases hx
    rw [if_pos hraw] at hx
    rw [typed, deliver, ofLine_eq_control hline]
    show control _ t code x.source = _
    rw [control, hooks_before ht, if_pos hraw, onTerminal_onTerminal, Option.some.inj hx]
    rfl
  · rw [Typed.pushed?_text hcontrol] at hx
    rw [typed, deliver, ofLine_eq_text hcontrol]
    show (onTerminal _ t fun y => y.pushLine x.line) = _
    rw [onTerminal_onTerminal, Option.some.inj hx]
    rfl

/-- A line that is not put into the input leaves what the input holds. -/
theorem typed_of_not_pushed (ht : t < h.terminals.size) (hx : x.pushed? = none) :
    (h.typed t x).terminals = (h.onTerminal t fun y => { y with hooks := x.hooks }).terminals := by
  by_cases hcontrol : IsControl x.line
  · obtain ⟨code, rest, hline⟩ := hcontrol
    rw [Typed.pushed?_control hline] at hx
    have hraw : x.hooks.rawInput = false := by
      cases hraw : x.hooks.rawInput with
      | false => rfl
      | true =>
        rw [hraw] at hx
        cases hx
    rw [typed, deliver, ofLine_eq_control hline]
    exact control_terminals code x.source (by rw [hooks_before ht, hraw])
  · rw [Typed.pushed?_text hcontrol] at hx
    cases hx

theorem size_typed (ht : t < h.terminals.size) : (h.typed t x).terminals.size = h.terminals.size := by
  cases hx : x.pushed? with
  | some line => rw [typed_of_pushed ht hx, size_onTerminal]
  | none => rw [typed_of_not_pushed ht hx, size_onTerminal]

/-- What a line adds to the input. -/
theorem input_typed (ht : t < h.terminals.size) :
    ((h.typed t x).terminal t).input.buffer.data.toList
      = (h.terminal t).input.buffer.data.toList ++ x.pushed?.toList.flatMap lineBytes := by
  cases hx : x.pushed? with
  | some line =>
    rw [typed_of_pushed ht hx, terminal_onTerminal, if_pos ⟨rfl, ht⟩, Option.toList_some, List.flatMap_singleton,
      ← toList_line]
    exact Bytes.toList_append _ _
  | none =>
    have hsame : (h.typed t x).terminal t = (h.onTerminal t fun y => { y with hooks := x.hooks }).terminal t := by
      rw [terminal, typed_of_not_pushed ht hx]
      rfl
    rw [hsame, terminal_onTerminal, if_pos ⟨rfl, ht⟩, Option.toList_none, List.flatMap_nil, List.append_nil]

/-! ### All lines -/

/-- What lines add to the input, by induction on them. -/
theorem input_typedAll (xs : List Typed) : ∀ {h : Host}, t < h.terminals.size →
    ((h.typedAll t xs).terminal t).input.buffer.data.toList
      = (h.terminal t).input.buffer.data.toList ++ (xs.filterMap Typed.pushed?).flatMap lineBytes := by
  induction xs with
  | nil =>
    intro h _
    exact (List.append_nil _).symm
  | cons x rest ih =>
    intro h ht
    have hrest : ((h.typedAll t (x :: rest)).terminal t).input.buffer.data.toList = _ := ih ((size_typed ht).symm ▸ ht)
    rw [hrest, input_typed ht, List.append_assoc, ← List.flatMap_append]
    cases hx : x.pushed? with
    | some line => rw [List.filterMap_cons_some hx]; rfl
    | none => rw [List.filterMap_cons_none hx]; rfl

/-- Nothing of the host has changed but the hooks and the input of one terminal. -/
def SameBut (t : Nat) (h h' : Host) : Prop :=
  ∃ f : Terminal → Terminal, h' = h.onTerminal t f ∧ ∀ y, ∃ hooks input, f y = { y with hooks, input }

theorem SameBut.refl (t : Nat) (h : Host) : SameBut t h h := by
  have hterminals : h.terminals.modify t id = h.terminals := by
    apply Array.ext_getElem?
    intro i
    rw [Array.getElem?_modify]
    split
    · exact congrFun Option.map_id h.terminals[i]?
    · rfl
  refine ⟨id, ?_, fun y => ⟨y.hooks, y.input, rfl⟩⟩
  show h = { h with terminals := h.terminals.modify t id }
  rw [hterminals]

theorem SameBut.trans {h h' h'' : Host} (h₁ : SameBut t h h') (h₂ : SameBut t h' h'') : SameBut t h h'' := by
  obtain ⟨f, rfl, hf⟩ := h₁
  obtain ⟨g, rfl, hg⟩ := h₂
  refine ⟨g ∘ f, onTerminal_onTerminal h t f g, fun y => ?_⟩
  obtain ⟨hooks, input, hy⟩ := hf y
  obtain ⟨hooks', input', hfy⟩ := hg (f y)
  exact ⟨hooks', input', by rw [Function.comp_apply, hfy, hy]⟩

theorem SameBut.display_eq {h h' : Host} (hsame : SameBut t h h') : h'.display = h.display := by
  obtain ⟨f, rfl, -⟩ := hsame
  rfl

theorem SameBut.isTerminated_eq {h h' : Host} (hsame : SameBut t h h') (session : Nat) :
    h'.isTerminated session = h.isTerminated session := by
  obtain ⟨f, rfl, -⟩ := hsame
  rfl

/-- Lines that are all put into the input do nothing else, by induction on them. -/
theorem sameBut_typedAll (xs : List Typed) : ∀ {h : Host}, t < h.terminals.size →
    (∀ x ∈ xs, x.pushed?.isSome = true) → SameBut t h (h.typedAll t xs) := by
  induction xs with
  | nil => exact fun _ _ => .refl t _
  | cons x rest ih =>
    intro h ht hpushed
    obtain ⟨hx, hrest⟩ := List.forall_mem_cons.mp hpushed
    obtain ⟨line, hline⟩ := Option.isSome_iff_exists.mp hx
    have hfirst : SameBut t h (h.typed t x) := ⟨_, typed_of_pushed ht hline, fun y => ⟨_, _, rfl⟩⟩
    exact hfirst.trans (ih ((size_typed ht).symm ▸ ht) hrest)

/-- **What becomes of typed lines.**  The input of the terminal grows by the lines that are put into it, each with a line
feed.  If there is no control sequence among them, or control sequences are delivered as text, all lines are put into it
and nothing else comes of them: no other slot comes into view, and no session is asked to end.  A line is there as it was
typed if it is no control sequence, or if control sequences are delivered as text and nothing stands after the second
character; for a line that begins with a circumflex and goes on counts as its first two characters. -/
theorem pushed_of_typed {h : Host} {t : Nat} (ht : t < h.terminals.size) (xs : List Typed) :
    let h' := h.typedAll t xs
    (h'.terminal t).input.buffer.data.toList
        = (h.terminal t).input.buffer.data.toList ++ (xs.filterMap Typed.pushed?).flatMap lineBytes ∧
      ((∀ x ∈ xs, ¬ IsControl x.line ∨ x.hooks.rawInput = true) →
        (∀ x ∈ xs, x.pushed?.isSome = true) ∧ SameBut t h h' ∧ h'.display = h.display ∧
          ∀ session, h'.isTerminated session = h.isTerminated session) ∧
      ∀ x : Typed,
        (x.pushed? = some x.line ↔ ¬ IsControl x.line ∨ x.hooks.rawInput = true ∧ x.line.toList.length = 2) ∧
          ∀ code rest, x.line.toList = '^' :: code :: rest →
            h.typed t x = h.typed t { x with line := String.ofList ['^', code] } := by
  refine ⟨input_typedAll xs ht, fun hxs => ?_, fun x => ⟨x.pushed?_eq_line_iff, fun code rest hline => ?_⟩⟩
  · have hpushed : ∀ x ∈ xs, x.pushed?.isSome = true := fun x hx => x.isSome_pushed?_iff.mpr (hxs x hx)
    have hsame := sameBut_typedAll xs ht hpushed
    exact ⟨hpushed, hsame, hsame.display_eq, hsame.isTerminated_eq⟩
  · have hshort : (String.ofList ['^', code]).toList = '^' :: code :: [] := String.toList_ofList
    simp only [typed, deliver, ofLine_eq_control hline, ofLine_eq_control hshort]

/-- A terminal that a session holds. -/
def occupied : Host := { terminals := #[{ active := some 0 }] }

theorem pushed_of_typed_raw :
    let xs : List Typed := [⟨{ rawInput := true }, "^c", "guest"⟩, ⟨{}, "^", "guest"⟩, ⟨{}, "größe", "guest"⟩]
    0 < occupied.terminals.size ∧ xs.filterMap Typed.pushed? = ["^c", "^", "größe"] ∧
      ((occupied.typedAll 0 xs).terminal 0).input.buffer.data.toList = ["^c", "^", "größe"].flatMap lineBytes := by
  intro xs
  have hpushed : xs.filterMap Typed.pushed? = ["^c", "^", "größe"] := by decide
  have hinput := (pushed_of_typed (h := occupied) (t := 0) (by decide) xs).1
  rw [hpushed] at hinput
  exact ⟨by decide, hpushed, hinput⟩

/-- **Lines that are more than control sequences are lost or cut.**  One asks the session to end, one brings another slot
into view, and neither is put into the input; while control sequences are delivered as text, only the beginning of one is
put into the input. -/
theorem long_control_lost :
    let ended := occupied.typed 0 ⟨{}, "^cancel my order", "guest"⟩
    let switched := occupied.typed 0 ⟨{}, "^3 apples", "guest"⟩
    let raw := occupied.typed 0 ⟨{ rawInput := true }, "^cancel my order", "guest"⟩
    (ended.terminal 0).input.buffer.data.toList = [] ∧ ended.isTerminated 0 = true ∧
      (switched.terminal 0).input.buffer.data.toList = [] ∧ switched.display.view = 3 ∧
      (raw.terminal 0).input.buffer.data.toList = lineBytes "^c" ∧ lineBytes "^c" ≠ lineBytes "^cancel my order" := by
  decide

end Host

end ScriptHost

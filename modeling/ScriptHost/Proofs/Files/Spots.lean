import Mathlib.Data.List.Induction
import ScriptHost.Proofs.Files.Components
import ScriptHost.Proofs.Files.Lookup

/-!
# Where paths lead by their text

The text of a path alone tells where it leads, for there are no links: up some directories and down some names.  Two dots
take back the last name, and where there is none left they lead further up, except above the root.

* `Spot`, `Path.spot` — where a path leads, seen from the root or from where one is;
* **`Spot.follow_eq`** — a relative path leads up so far and down such names, wherever it begins;
* `Spot.Within`, **`Spot.within_iff_returnsTo`** — when it leads to where it began or below that;
* **`Path.spot_join`** — a path below another one leads on from there;
* `Tree.goes`, **`Tree.LeadsTo.eq_goes`**, **`Tree.createDirs_places`** — walking through a tree and making directories in
  it go where the text says;
* **`Spot.place_follow`** — and these places are those of the spots;
* **`Spot.atOrBelow_of_within`** — so what is within a spot by its text is at its place or below.
-/

namespace ScriptHost

/-- Where a path leads by its text alone: seen from the root or from where one is, so many directories up and then down
some names. -/
structure Spot where
  fromRoot : Bool := false
  up : Nat := 0
  names : List String := []
  deriving DecidableEq, Repr

namespace Spot

/-! ### Going from spot to spot -/

/-- The directory above.  Above the root there is nothing but the root. -/
def above (s : Spot) : Spot :=
  if s.names = [] then if s.fromRoot then s else { s with up := s.up + 1 }
  else { s with names := s.names.dropLast }

/-- Some names further down. -/
def descend (s : Spot) (names : List String) : Spot := { s with names := s.names ++ names }

/-- So many directories further up. -/
def climb (s : Spot) : Nat → Spot
  | 0 => s
  | k + 1 => (climb s k).above

/-- Where one part of a path leads. -/
def step (s : Spot) : Component → Spot
  | .root => { fromRoot := true }
  | .current => s
  | .parent => s.above
  | .name n => s.descend [n]

/-- Where the parts of a path lead. -/
def follow (s : Spot) (cs : List Component) : Spot := cs.foldl step s

variable (s : Spot)

theorem follow_append (cs ds : List Component) : s.follow (cs ++ ds) = (s.follow cs).follow ds :=
  List.foldl_append

theorem follow_concat (cs : List Component) (c : Component) : s.follow (cs ++ [c]) = (s.follow cs).step c := by
  rw [follow_append]
  rfl

theorem descend_descend (ns ms : List String) : (s.descend ns).descend ms = s.descend (ns ++ ms) := by
  rw [descend, descend, descend, List.append_assoc]

theorem up_descend (ns : List String) : (s.descend ns).up = s.up := rfl

theorem names_descend (ns : List String) : (s.descend ns).names = s.names ++ ns := rfl

theorem descend_nil : s.descend [] = s := by
  rw [descend, List.append_nil]

/-- Names lead down. -/
theorem follow_names (names : List String) : s.follow (names.map .name) = s.descend names := by
  induction names using List.reverseRecOn with
  | nil => exact s.descend_nil.symm
  | append_singleton ns n ih =>
    rw [List.map_append, List.map_singleton, follow_concat, ih, step, descend_descend]

theorem above_descend {ns : List String} (hns : ns ≠ []) : (s.descend ns).above = s.descend ns.dropLast := by
  have hne : (s.descend ns).names ≠ [] := List.append_ne_nil_of_right_ne_nil _ hns
  rw [above, if_neg hne]
  simp only [descend, List.dropLast_append_of_ne_nil hns]

/-- Each directory further up takes back one name, and goes above where one was when no name is left. -/
theorem climb_eq (k : Nat) : s.climb k =
    { s with
      up := if s.fromRoot then s.up else s.up + (k - s.names.length)
      names := s.names.take (s.names.length - k) } := by
  induction k with
  | zero => simp [climb]
  | succ k ih =>
    rw [climb, ih, above]
    by_cases hk : k < s.names.length
    · have hne : ¬ s.names.take (s.names.length - k) = [] := by
        rw [← List.length_eq_zero_iff, List.length_take]
        omega
      have hlast : (s.names.take (s.names.length - k)).dropLast = s.names.take (s.names.length - (k + 1)) := by
        rw [List.dropLast_eq_take, List.length_take, List.take_take]
        congr 1
        omega
      have hup : k - s.names.length = 0 ∧ k + 1 - s.names.length = 0 := by omega
      rw [if_neg hne, hlast, hup.1, hup.2]
    · have hnil : s.names.take (s.names.length - k) = [] ∧ s.names.take (s.names.length - (k + 1)) = [] := by
        have h : s.names.length - k = 0 ∧ s.names.length - (k + 1) = 0 := by omega
        rw [h.1, h.2]
        exact ⟨rfl, rfl⟩
      have hup : k + 1 - s.names.length = k - s.names.length + 1 := by omega
      rw [hnil.1, hnil.2, hup]
      cases s.fromRoot <;> rfl

/-! ### Relative paths -/

/-- **A path without a root** leads up so far and then down such names, wherever it begins. -/
theorem follow_eq {cs : List Component} (hcs : .root ∉ cs) :
    s.follow cs = (s.climb (follow {} cs).up).descend (follow {} cs).names ∧ (follow {} cs).fromRoot = false := by
  induction cs using List.reverseRecOn with
  | nil => exact ⟨(s.descend_nil).symm, rfl⟩
  | append_singleton cs c ih =>
    rw [List.mem_append, List.mem_singleton, not_or] at hcs
    obtain ⟨heq, hrel⟩ := ih hcs.1
    rw [follow_concat, follow_concat, heq]
    generalize follow {} cs = w at hrel
    cases c with
    | root => exact absurd rfl hcs.2
    | current => exact ⟨rfl, hrel⟩
    | name n =>
      refine ⟨?_, hrel⟩
      rw [step, step, descend_descend]
      rfl
    | parent =>
      rw [step, step]
      by_cases hnames : w.names = []
      · have hw : w.above = { w with up := w.up + 1 } := by
          rw [above, if_pos hnames, hrel, if_neg Bool.false_ne_true]
        rw [hw, hnames, descend_nil]
        exact ⟨(descend_nil _).symm, hrel⟩
      · have hw : w.above = { w with names := w.names.dropLast } := by
          rw [above, if_neg hnames]
        rw [hw, above_descend _ hnames]
        exact ⟨rfl, hrel⟩

/-- Only the root of all leads back down. -/
theorem up_le_step {c : Component} (hc : c ≠ .root) : s.up ≤ (s.step c).up := by
  cases c with
  | root => exact absurd rfl hc
  | current => exact Nat.le_refl _
  | name n => exact Nat.le_refl _
  | parent =>
    rw [step, above]
    split
    · split
      · exact Nat.le_refl _
      · exact Nat.le_succ _
    · exact Nat.le_refl _

theorem up_le_follow {cs : List Component} (hcs : .root ∉ cs) : s.up ≤ (s.follow cs).up := by
  induction cs using List.reverseRecOn with
  | nil => exact Nat.le_refl _
  | append_singleton cs c ih =>
    rw [List.mem_append, List.mem_singleton, not_or] at hcs
    rw [follow_concat]
    exact Nat.le_trans (ih hcs.1) (up_le_step _ (Ne.symm hcs.2))

/-- A spot is another one, or below it. -/
def Within (r : Spot) : Prop := ∃ names, s = r.descend names

theorem within_iff (r : Spot) : s.Within r ↔ s.fromRoot = r.fromRoot ∧ s.up = r.up ∧ r.names <+: s.names := by
  constructor
  · rintro ⟨names, rfl⟩
    exact ⟨rfl, rfl, List.prefix_append _ _⟩
  · obtain ⟨fromRoot, up, names⟩ := s
    rintro ⟨rfl, rfl, rest, rfl⟩
    exact ⟨rest, rfl⟩

instance (r : Spot) : Decidable (s.Within r) := decidable_of_iff _ (s.within_iff r).symm

/-- Going this way from a spot one comes back to it: it leads up so far, and then down the same names again.  Where one
climbs above all names of the spot, there is no way back, except from the root. -/
def ReturnsTo (way s : Spot) : Prop :=
  (s.fromRoot = true ∨ way.up ≤ s.names.length) ∧ s.names.drop (s.names.length - way.up) <+: way.names

instance (way s : Spot) : Decidable (way.ReturnsTo s) := inferInstanceAs (Decidable (_ ∧ _))

/-- **When a way stays within** the spot where it begins. -/
theorem within_iff_returnsTo (way : Spot) : ((s.climb way.up).descend way.names).Within s ↔ way.ReturnsTo s := by
  have hup : (if s.fromRoot then s.up else s.up + (way.up - s.names.length)) = s.up ↔
      s.fromRoot = true ∨ way.up ≤ s.names.length := by
    cases s.fromRoot with
    | true => exact iff_of_true rfl (.inl rfl)
    | false =>
      rw [if_neg Bool.false_ne_true]
      simp only [Bool.false_eq_true, false_or]
      omega
  have hnames : s.names <+: s.names.take (s.names.length - way.up) ++ way.names ↔
      s.names.drop (s.names.length - way.up) <+: way.names := by
    have hparted : s.names.take (s.names.length - way.up) ++ s.names.drop (s.names.length - way.up) <+:
        s.names.take (s.names.length - way.up) ++ way.names ↔ _ := List.prefix_append_right_inj _
    rwa [List.take_append_drop] at hparted
  rw [within_iff, climb_eq, ReturnsTo]
  simp only [descend, hup, hnames, true_and]

/-- The first parts of a way that never leads up stay within. -/
theorem within_follow {first cs : List Component} (hfirst : first <+: cs) (hcs : .root ∉ cs)
    (hup : (follow {} cs).up = 0) : (s.follow first).Within s := by
  obtain ⟨rest, rfl⟩ := hfirst
  rw [List.mem_append, not_or] at hcs
  rw [follow_append] at hup
  have hup' : (follow {} first).up = 0 := Nat.le_zero.mp (Nat.le_trans (up_le_follow _ hcs.2) (Nat.le_of_eq hup))
  refine ⟨(follow {} first).names, ?_⟩
  rw [(s.follow_eq hcs.1).1, hup']
  rfl

/-- A way that never leads up stays within. -/
theorem returnsTo_of_up_eq_zero {way : Spot} (h : way.up = 0) : way.ReturnsTo s := by
  rw [ReturnsTo, h, Nat.sub_zero, List.drop_length]
  exact ⟨.inr (Nat.zero_le _), List.nil_prefix⟩

end Spot

/-! ### Paths -/

namespace Path

variable {base path : String}

/-- Where a path leads by its text. -/
def spot (path : String) : Spot := Spot.follow {} (components path)

/-- What the first part of a relative path means by its position does not matter. -/
theorem follow_components (s : Spot) (hrel : isAbsolute path = false) :
    s.follow (components path) = s.follow (inner path) := by
  rw [components_eq, Spot.follow_append, lead, hrel, if_neg Bool.false_ne_true]
  split <;> rfl

theorem root_notMem_components (hrel : isAbsolute path = false) : Component.root ∉ components path := by
  rw [components_eq, List.mem_append, not_or, lead, hrel, if_neg Bool.false_ne_true]
  refine ⟨?_, root_notMem_inner path⟩
  split <;> simp

/-- A path below another one has further parts, which lead on from there as it leads by itself. -/
theorem exists_components_join (base : String) (hrel : isAbsolute path = false) :
    ∃ more, components (join base path) = components base ++ more ∧ .root ∉ more ∧
      ∀ s : Spot, s.follow more = s.follow (components path) := by
  by_cases hbase : base = ""
  · subst hbase
    rw [join_empty hrel]
    exact ⟨components path, rfl, root_notMem_components hrel, fun _ => rfl⟩
  · exact ⟨inner path, components_join hbase hrel, root_notMem_inner path, fun s => (follow_components s hrel).symm⟩

/-- **A path below another one** leads on from there. -/
theorem spot_join (hrel : isAbsolute path = false) : spot (join base path) = (spot base).follow (components path) := by
  obtain ⟨more, hcomponents, -, hmore⟩ := exists_components_join base hrel
  rw [spot, hcomponents, Spot.follow_append, hmore]
  rfl

end Path

/-! ### Places in a tree -/

namespace Tree

variable {t t' : Tree} {place path q : String}

/-- The place to which one part of a path leads from a place. -/
def goes (place : String) : Component → String
  | .root => "/"
  | .current => place
  | .parent => above place
  | .name s => below place s

/-- A walk that ends well ends where its parts lead. -/
theorem walk_goes {mustBeDir : Bool} {cs : List Component} {l : Location} :
    ∀ {place : String}, t.walk place mustBeDir cs = .ok l → l = t.location (cs.foldl goes place) := by
  induction cs with
  | nil =>
    intro place hwalk
    exact (walk_nil_ok hwalk).1
  | cons c rest ih =>
    intro place hwalk
    have hplace := walk_from_dir hwalk
    cases c with
    | root =>
      simp only [walk, hplace] at hwalk
      exact ih hwalk
    | current =>
      simp only [walk, hplace] at hwalk
      exact ih hwalk
    | parent =>
      simp only [walk, hplace] at hwalk
      exact ih hwalk
    | name s =>
      rcases walk_name_ok hplace hwalk with ⟨rfl, -, -, hl⟩ | ⟨-, hon⟩
      · exact hl
      · exact ih hon

/-- **A path leads** where its parts go. -/
theorem LeadsTo.eq_goes (h : t.LeadsTo path q) : q = (Path.components path).foldl goes "" := by
  rw [LeadsTo, locate] at h
  split at h
  · cases h
  · exact location_inj (walk_goes h)

/-- A place to which the first parts of a path lead. -/
def OnTheWay (path place : String) : Prop := ∃ first, first <+: Path.components path ∧ place = first.foldl goes ""

/-- Making directories changes the tree only where some first parts lead, and what is new is a directory. -/
theorem createFrom_places {cs : List Component} : ∀ {t : Tree} {place : String}, t.createFrom place cs = .ok t' →
    t'.node? q ≠ t.node? q → t'.node? q = some .dir ∧ ∃ first, first <+: cs ∧ q = first.foldl goes place := by
  induction cs with
  | nil =>
    intro t place h hnew
    cases h
    exact absurd rfl hnew
  | cons c rest ih =>
    intro t place h hnew
    have hon : ∀ {t : Tree}, t.createFrom (goes place c) rest = .ok t' → t'.node? q ≠ t.node? q →
        t'.node? q = some .dir ∧ ∃ first, first <+: c :: rest ∧ q = first.foldl goes place := by
      intro t h hnew
      obtain ⟨hdir, first, hfirst, hq⟩ := ih h hnew
      exact ⟨hdir, c :: first, List.cons_prefix_cons.mpr ⟨rfl, hfirst⟩, hq⟩
    cases c with
    | root => exact hon h hnew
    | current => exact hon h hnew
    | parent => exact hon h hnew
    | name s =>
      rcases createFrom_name_ok h with ⟨hnode, hmade⟩ | hon'
      · by_cases hq : q = below place s
        · have hdir : (t.insert (below place s) .dir).node? q = some .dir := by
            rw [hq]
            exact node?_insert_self (fun h => (by rw [hnode] at h; cases h)) _
          exact ⟨createFrom_grows hmade q .dir hdir, [.name s], List.cons_prefix_cons.mpr ⟨rfl, List.nil_prefix⟩, hq⟩
        · refine hon hmade ?_
          rwa [node?_insert_of_ne _ hq]
      · exact hon hon' hnew

/-- **Making directories** changes the tree only on the way, and what is new is a directory. -/
theorem createDirs_places (h : t.createDirs path = .ok t') (hnew : t'.node? q ≠ t.node? q) :
    t'.node? q = some .dir ∧ OnTheWay path q := createFrom_places h hnew

/-- A place, or one that some names lead to from there. -/
def AtOrBelow (top place : String) : Prop :=
  ∃ names : List String, (∀ n ∈ names, Path.IsName n) ∧ place = names.foldl below top

/-- Going back over a name, character by character. -/
theorem dropWhile_reverse_name {n : String} (hn : Path.IsName n) (rest : List Char) :
    (n.toList.reverse ++ rest).dropWhile (· != '/') = rest.dropWhile (· != '/') := by
  refine List.dropWhile_append_of_pos fun c hc => ?_
  rw [bne_iff_ne]
  rintro rfl
  exact hn.slash_notMem (List.mem_reverse.mp hc)

/-- Above a mere name there is the directory where one is. -/
theorem above_name {n : String} (hn : Path.IsName n) : above n = "" := by
  have hroot : n ≠ "/" := by
    rintro rfl
    exact hn.slash_notMem (by decide)
  have hrest := dropWhile_reverse_name hn []
  rw [List.append_nil] at hrest
  rw [above, if_neg hroot]
  simp only [hrest, List.dropWhile_nil, if_neg hn.ne_empty]

/-- Above a name behind a slash there is what is before the slash, or the root. -/
theorem above_slash (front : List Char) {n : String} (hn : Path.IsName n) :
    above (String.ofList (front ++ '/' :: n.toList)) = if front = [] then "/" else String.ofList front := by
  have hroot : String.ofList (front ++ '/' :: n.toList) ≠ "/" := by
    intro heq
    have hlength := congrArg (fun s => s.toList.length) heq
    simp only [String.toList_ofList, List.length_append, List.length_cons] at hlength
    have hempty : n.toList = [] := by
      rw [← List.length_eq_zero_iff]
      have hone : ("/" : String).toList.length = 1 := rfl
      omega
    exact hn.ne_empty (String.toList_eq_nil_iff.mp hempty)
  have hchars : (String.ofList (front ++ '/' :: n.toList)).toList.reverse = n.toList.reverse ++ '/' :: front.reverse := by
    simp
  rw [above, if_neg hroot, hchars, dropWhile_reverse_name hn, List.dropWhile_cons, if_neg (by decide)]
  by_cases hfront : front = []
  · rw [hfront]
    rfl
  · obtain ⟨c, cs, hcs⟩ := List.exists_cons_of_ne_nil (List.reverse_ne_nil_iff.mpr hfront)
    rw [if_neg hfront, hcs]
    show String.ofList (c :: cs).reverse = String.ofList front
    rw [← hcs, List.reverse_reverse]

/-- Above what is below a place is the place. -/
theorem above_below (place : String) {n : String} (hn : Path.IsName n) : above (below place n) = place := by
  rw [below]
  by_cases hplace : place = ""
  · rw [if_pos hplace, above_name hn, hplace]
  · rw [if_neg hplace]
    by_cases hroot : place = "/"
    · have hchars : "/" ++ n = String.ofList ([] ++ '/' :: n.toList) := by
        rw [← String.toList_inj, String.toList_append, String.toList_ofList, String.toList_ofList]
        rfl
      rw [if_pos hroot, hchars, above_slash _ hn, if_pos rfl, hroot]
    · have hchars : place ++ "/" ++ n = String.ofList (place.toList ++ '/' :: n.toList) := by
        rw [← String.toList_inj, String.toList_append, String.toList_append, String.toList_ofList, List.append_assoc,
          String.toList_ofList]
        rfl
      have hne : ¬ place.toList = [] := by
        rwa [String.toList_eq_nil_iff]
      rw [if_neg hroot, hchars, above_slash _ hn, if_neg hne, String.ofList_toList]

/-- Down a name and up again is no way at all, where the directory is there. -/
theorem walk_down_up {mustBeDir : Bool} {n : String} {rest : List Component} (hn : Path.IsName n)
    (hplace : t.node? place = some .dir) (hbelow : t.node? (below place n) = some .dir) :
    t.walk place mustBeDir (.name n :: .parent :: rest) = t.walk place mustBeDir rest := by
  rw [walk_name hplace, if_neg (fun h => nomatch h.2), walk]
  simp only [hbelow, above_below _ hn]

end Tree

namespace Spot

/-- The place of a spot that is not above where one is. -/
def place (s : Spot) : String := s.names.foldl Tree.below (if s.fromRoot then "/" else "")

/-- All names of a spot can name something. -/
def Proper (s : Spot) : Prop := ∀ n ∈ s.names, Path.IsName n

variable {s : Spot}

theorem place_descend (names : List String) : (s.descend names).place = names.foldl Tree.below s.place :=
  List.foldl_append

theorem Proper.step (hs : s.Proper) {c : Component} (hc : ∀ n, c = .name n → Path.IsName n) : (s.step c).Proper := by
  cases c with
  | root => exact fun n hn => nomatch hn
  | current => exact hs
  | parent =>
    intro n hn
    rw [Spot.step, above] at hn
    split at hn
    · split at hn <;> exact hs n hn
    · exact hs n (List.dropLast_subset _ hn)
  | name m =>
    intro n hn
    rcases List.mem_append.mp hn with hold | hnew
    · exact hs n hold
    · rw [List.mem_singleton.mp hnew]
      exact hc m rfl

theorem Proper.follow (hs : s.Proper) {cs : List Component} (hcs : ∀ n, .name n ∈ cs → Path.IsName n) :
    (s.follow cs).Proper := by
  induction cs using List.reverseRecOn with
  | nil => exact hs
  | append_singleton cs c ih =>
    rw [follow_concat]
    refine (ih fun n hn => hcs n (List.mem_append_left _ hn)).step ?_
    rintro n rfl
    exact hcs n (List.mem_append_right _ (List.mem_singleton_self _))

/-- One part leads to the same place by its text and in the tree. -/
theorem place_step (hs : s.Proper) {c : Component} (hup : (s.step c).up = 0) :
    (s.step c).place = Tree.goes s.place c := by
  cases c with
  | root => rfl
  | current => rfl
  | name n => exact place_descend [n]
  | parent =>
    rw [step, above] at hup ⊢
    rcases List.eq_nil_or_concat s.names with hnil | ⟨init, n, hnames⟩
    · rw [if_pos hnil] at hup ⊢
      cases hroot : s.fromRoot with
      | true =>
        rw [if_pos rfl, place, hnil, hroot]
        rfl
      | false =>
        rw [hroot, if_neg Bool.false_ne_true] at hup
        cases hup
    · have hne : ¬ s.names = [] := by simp [hnames]
      have hname : Path.IsName n := hs n (by simp [hnames])
      rw [if_neg hne, Tree.goes, place, place, hnames, List.concat_eq_append, List.dropLast_concat, List.foldl_append]
      exact (Tree.above_below _ hname).symm

/-- **The places of spots.**  Where parts lead by their text without leading above where one is, they lead in the tree. -/
theorem place_follow (hs : s.Proper) {cs : List Component} (hcs : ∀ n, .name n ∈ cs → Path.IsName n)
    (hup : (s.follow cs).up = 0) : (s.follow cs).place = cs.foldl Tree.goes s.place := by
  induction cs using List.reverseRecOn with
  | nil => rfl
  | append_singleton cs c ih =>
    have hcs' : ∀ n, .name n ∈ cs → Path.IsName n := fun n hn => hcs n (List.mem_append_left _ hn)
    rw [follow_concat] at hup ⊢
    rw [place_step (hs.follow hcs') hup, List.foldl_append, List.foldl_cons, List.foldl_nil]
    by_cases hroot : c = .root
    · subst hroot
      rfl
    · -- only the root leads from above back to below
      have hbefore : (s.follow cs).up = 0 := Nat.le_zero.mp (hup ▸ (s.follow cs).up_le_step hroot)
      rw [ih hcs' hbefore]

/-- **What is within a spot** by its text is at its place or below. -/
theorem atOrBelow_of_within {r : Spot} (hr : r.up = 0) {cs : List Component} (hcs : ∀ n, .name n ∈ cs → Path.IsName n)
    (hwithin : (follow {} cs).Within r) : Tree.AtOrBelow r.place (cs.foldl Tree.goes "") := by
  obtain ⟨names, heq⟩ := hwithin
  have hempty : Proper {} := fun n hn => nomatch hn
  have hproper := hempty.follow hcs
  have hplace := place_follow hempty hcs (by rw [heq]; exact hr)
  rw [heq] at hproper
  rw [heq, place_descend] at hplace
  exact ⟨names, fun n hn => hproper n (List.mem_append_right _ hn), hplace.symm⟩

end Spot

end ScriptHost

import ScriptHost.Proofs.Files.Spots
import ScriptHost.World

/-!
# Programs below their directory

A session on a terminal can be started with a program by its path, which is taken to begin in the directory of programs.

* **`World.program_stays_below`** — which paths are refused, and that the others lead further down, name by name.
-/

namespace ScriptHost.World

open ScriptHost.Path

/-- What a path means below the directory of programs: slashes at its start are no root. -/
def relative (path : String) : String := Text.trimStartChar path '/'

/-- A relative path has another part than names exactly if it goes up somewhere or begins with a dot. -/
theorem any_not_name_iff {path : String} (hrel : isAbsolute path = false) :
    (∃ c ∈ components path, ∀ s, c ≠ .name s) ↔ ".." ∈ parts path ∨ (parts path).head? = some "." := by
  rw [components_eq, lead, hrel, if_neg Bool.false_ne_true]
  constructor
  · rintro ⟨c, hc, hname⟩
    rcases List.mem_append.mp hc with hlead | hinner
    · right
      split at hlead
      · assumption
      · cases hlead
    · left
      rcases mem_inner_cases hinner with ⟨-, hdots⟩ | ⟨s, -, -, heq⟩
      · exact hdots
      · exact absurd heq (hname s)
  · rintro (hdots | hdot)
    · exact ⟨.parent, List.mem_append_right _ (parent_mem_inner_iff.mpr hdots), fun _ h => (by cases h)⟩
    · rw [if_pos hdot]
      exact ⟨.current, List.mem_append_left _ List.mem_cons_self, fun _ h => (by cases h)⟩

/-- When a path is refused, and what becomes of it if not. -/
theorem programPath?_eq (dataDir path : String) :
    programPath? dataDir path =
      if relative path = "" ∨ ".." ∈ parts (relative path) ∨ (parts (relative path)).head? = some "." then none
      else some (join dataDir (relative path)) := by
  have hrel : isAbsolute (relative path) = false := isAbsolute_trimStartChar path
  simp only [programPath?]
  refine if_ctx_congr ?_ (fun _ => rfl) fun _ => rfl
  rw [← any_not_name_iff hrel, Bool.or_eq_true, decide_eq_true_eq, List.any_eq_true]
  refine or_congr_right (exists_congr fun c => and_congr_right fun _ => ?_)
  cases c <;> simp

/-- **Programs stay below their directory.**  A path is refused exactly if nothing is left of it without the slashes at
its start, or if it goes up somewhere, or if its first part is a dot.  Any other path leads from the directory of programs
further down: by at least one name, and by its parts that are not empty and no dots, all of which are names. -/
theorem program_stays_below (dataDir path : String) :
    (programPath? dataDir path = none ↔
      relative path = "" ∨ ".." ∈ parts (relative path) ∨ (parts (relative path)).head? = some ".") ∧
    ∀ full, programPath? dataDir path = some full →
      steps (relative path) ≠ [] ∧ (∀ s ∈ steps (relative path), IsName s) ∧
      components full = components dataDir ++ (steps (relative path)).map .name ∧
      spot full = (spot dataDir).descend (steps (relative path)) := by
  rw [programPath?_eq]
  constructor
  · split
    · rename_i hrefused
      exact iff_of_true rfl hrefused
    · rename_i htaken
      exact iff_of_false nofun htaken
  · intro full hfull
    split at hfull
    · cases hfull
    · rename_i htaken
      cases hfull
      rw [not_or, not_or] at htaken
      obtain ⟨hne, hdots, hdot⟩ := htaken
      have hrel : isAbsolute (relative path) = false := isAbsolute_trimStartChar path
      obtain ⟨hinner, hnames⟩ := inner_eq_names hdots
      have hcomponents : components (relative path) = (steps (relative path)).map .name := by
        rw [components_eq, lead, hrel, if_neg Bool.false_ne_true, if_neg hdot, hinner, List.nil_append]
      refine ⟨?_, hnames, ?_, ?_⟩
      · -- the first part is neither empty, for no slash comes first, nor a dot
        obtain ⟨first, others, hparts⟩ := List.exists_cons_of_ne_nil (parts_ne_nil (relative path))
        have hempty := head?_parts_ne_empty hne hrel
        rw [hparts, List.head?_cons] at hempty hdot
        refine List.ne_nil_of_mem (mem_steps_iff.mpr ⟨hparts ▸ List.mem_cons_self, ?_, ?_⟩)
        · exact fun h => hempty (congrArg some h)
        · exact fun h => hdot (congrArg some h)
      · by_cases hdir : dataDir = ""
        · have hempty : components "" = [] := by decide +kernel
          rw [hdir, join_empty hrel, hcomponents, hempty, List.nil_append]
        · rw [components_join hdir hrel, hinner]
      · rw [spot_join hrel, hcomponents, Spot.follow_names]

/-- The text is kept as it is: slashes and dots that mean nothing are left in it. -/
example : programPath? "data" "//a/.//.../b/" = some "data/a/.//.../b/" ∧ steps "a/.//.../b/" = ["a", "...", "b"] := by
  decide +kernel

end ScriptHost.World

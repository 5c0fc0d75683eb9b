import Mathlib.Data.List.Nodup
import ScriptHost.Proofs.Host.Tables
import ScriptHost.Proofs.Text.Utf8

/-!
# Frames and their pixels

A frame keeps its pixels in one string of bytes, row after row.  What its users see is a map from places to colours, which
begins all zero and of which every write changes one place.

* `Frame.InBounds` — no place lies outside the bytes, and no row is looked for in a frame without columns;
* **`Frame.paint_eq`** — painting goes through the rows from left to right;
* `Renderer.Call`, `Renderer.after` — what can be asked of a renderer, and the frames after some calls;
* `Renderer.sheet?` — what the calls alone tell of a frame: its size, and the pixels set since it was made;
* `Frame.Shows` — a frame has the size and the colours that are told of it, kept by `Shows.set`;
* **`Renderer.pictured`** — whatever was called, the frames, their pixels and what is painted are as the calls tell.
-/

namespace ScriptHost

/-! ### Bytes -/

namespace Bytes

theorem data_fill (n : Nat) (x : UInt8) : (fill n x).data = Array.replicate n x := by
  rw [fill]
  induction n with
  | zero => rfl
  | succ n ih =>
    rw [Nat.fold_succ, Array.replicate_succ, ← ih]
    rfl

theorem size_fill (n : Nat) (x : UInt8) : (fill n x).size = n := by
  rw [← ByteArray.size_data, data_fill, Array.size_replicate]

theorem get!_fill {n i : Nat} (x : UInt8) (h : i < n) : (fill n x).get! i = x := by
  show (fill n x).data[i]! = x
  rw [data_fill, getElem!_pos _ i (by rwa [Array.size_replicate]), Array.getElem_replicate]

theorem get!_set! (b : Bytes) {i : Nat} (x : UInt8) (h : i < b.size) (k : Nat) :
    (b.set! i x).get! k = if k = i then x else b.get! k := by
  show (b.data.set! i x)[k]! = if k = i then x else b.data[k]!
  rw [getElem!_def, getElem!_def, Array.set!_eq_setIfInBounds, Array.getElem?_setIfInBounds]
  by_cases hk : k = i
  · subst hk
    have hlt : k < b.data.size := h
    rw [if_pos rfl, if_pos rfl, if_pos hlt]
  · rw [if_neg (Ne.symm hk), if_neg hk]

end Bytes

/-! ### Row after row -/

/-- The pixels of a rectangle, the first row first and each row from left to right. -/
def rowMajor (width height : Nat) (colour : Nat → Nat → UInt8) : List (Nat × Nat × UInt8) :=
  (List.range height).flatMap fun y => (List.range width).map fun x => (x, y, colour x y)

theorem place_lt {width height x y : Nat} (hx : x < width) (hy : y < height) : y * width + x < width * height :=
  calc y * width + x < y * width + width := Nat.add_lt_add_left hx _
    _ = (y + 1) * width := (Nat.succ_mul y width).symm
    _ ≤ height * width := Nat.mul_le_mul_right width hy
    _ = width * height := Nat.mul_comm height width

theorem place_mod {width x : Nat} (hx : x < width) (y : Nat) : (y * width + x) % width = x := by
  rw [Nat.mul_comm, Nat.mul_add_mod, Nat.mod_eq_of_lt hx]

theorem place_div {width x : Nat} (hx : x < width) (y : Nat) : (y * width + x) / width = y := by
  have hwidth : 0 < width := Nat.zero_lt_of_lt hx
  rw [Nat.mul_comm, Nat.mul_add_div hwidth, Nat.div_eq_of_lt hx, Nat.add_zero]

/-- Counting through a rectangle goes through its rows. -/
theorem map_range_mul (width height : Nat) (colour : Nat → UInt8) :
    (List.range (width * height)).map (fun i => (i % width, i / width, colour i))
      = rowMajor width height fun x y => colour (y * width + x) := by
  induction height with
  | zero => rfl
  | succ height ih =>
    have hrow : ∀ x ∈ List.range width,
        ((width * height + x) % width, (width * height + x) / width, colour (width * height + x))
          = (x, height, colour (height * width + x)) := by
      intro x hx
      have hlt := List.mem_range.mp hx
      rw [Nat.mul_comm width height, place_mod hlt, place_div hlt]
    rw [Nat.mul_succ, List.range_add, List.map_append, ih, List.map_map, rowMajor, rowMajor, List.range_succ,
      List.flatMap_append, List.flatMap_singleton]
    exact congrArg _ (List.map_congr_left hrow)

/-! ### One frame -/

namespace Frame

variable {f : Frame} {x y i : Nat}

theorem place?_eq_some_iff : f.place? x y = some i ↔ (x < f.width ∧ y < f.height) ∧ y * f.width + x = i := by
  rw [place?]
  split
  · rename_i hinside
    rw [Option.some.injEq, and_iff_right hinside]
  · rename_i houtside
    exact ⟨nofun, fun h => absurd h.1 houtside⟩

/-- No place lies outside the bytes; and where a byte is painted there is a column to paint it in, and its place is inside. -/
structure InBounds (f : Frame) : Prop where
  place : ∀ x y i, f.place? x y = some i → i < f.pixels.size
  paint : ∀ i < f.pixels.size, 0 < f.width ∧ i % f.width < f.width ∧ i / f.width < f.height

/-- A frame that has a byte for each pixel. -/
theorem inBounds_of_size (hsize : f.pixels.size = f.width * f.height) : f.InBounds where
  place x y i hplace := by
    obtain ⟨⟨hx, hy⟩, rfl⟩ := place?_eq_some_iff.mp hplace
    rw [hsize]
    exact place_lt hx hy
  paint i hi := by
    rw [hsize] at hi
    have hwidth : 0 < f.width := Nat.pos_of_mul_pos_right (Nat.zero_lt_of_lt hi)
    exact ⟨hwidth, Nat.mod_lt i hwidth, Nat.div_lt_of_lt_mul hi⟩

/-- **Painting** goes through the rows, and meets each pixel once. -/
theorem paint_eq (hsize : f.pixels.size = f.width * f.height) :
    f.paint = rowMajor f.width f.height fun x y => f.pixels.get! (y * f.width + x) := by
  have hbytes : f.pixels.toList.zipIdx = (List.range (f.width * f.height)).map fun i => (f.pixels.get! i, i) := by
    refine List.ext_getElem ?_ fun i hi _ => ?_
    · rw [List.length_zipIdx, List.length_map, List.length_range, Bytes.toList_eq, Array.length_toList]
      exact hsize
    · have hlt : i < f.pixels.data.size := by
        rw [List.length_zipIdx, Bytes.toList_eq, Array.length_toList] at hi
        exact hi
      have hget : f.pixels.get! i = f.pixels.data[i] := getElem!_pos f.pixels.data i hlt
      simp only [List.getElem_zipIdx, List.getElem_map, List.getElem_range, Nat.zero_add, hget, Bytes.toList_eq,
        Array.getElem_toList]
  rw [paint, hbytes, List.map_map]
  exact map_range_mul f.width f.height f.pixels.get!

end Frame

/-! ### What calls tell -/

namespace Renderer

/-- What can be asked of a renderer. -/
inductive Call where
  | create (width height : UInt32)
  | setPixel (handle x y : Nat) (c : UInt8)
  | release (handle : Nat)
  deriving DecidableEq, Repr

/-- The frames after one more call. -/
def Call.run (r : Renderer) : Call → Renderer
  | .create width height => (r.request width height).2
  | .setPixel handle x y c => r.setPixel handle x y c
  | .release handle => r.release handle

/-- The frames after some calls, of which the last one comes first. -/
def after : List Call → Renderer
  | [] => {}
  | call :: past => call.run (after past)

/-- The numbers of all the frames that were made, the last one first. -/
def handles : List Call → List Nat
  | [] => []
  | .create width height :: past =>
    match ((after past).request width height).1 with
    | .ok handle => handle :: handles past
    | .error _ => handles past
  | .setPixel .. :: past => handles past
  | .release _ :: past => handles past

/-- What is told of a frame: its size, and the pixels that were set since it was made, the last one first. -/
structure Sheet where
  width : Nat
  height : Nat
  strokes : List (Nat × Nat × UInt8) := []

namespace Sheet

/-- One more pixel is set. -/
def stroke (s : Sheet) (x y : Nat) (c : UInt8) : Sheet := { s with strokes := (x, y, c) :: s.strokes }

/-- The colour that was given last to a place; without one it is zero. -/
def colour (s : Sheet) (x y : Nat) : UInt8 :=
  (s.strokes.findSome? fun (a, b, c) => if a = x ∧ b = y then some c else none).getD 0

theorem colour_stroke (s : Sheet) (x y : Nat) (c : UInt8) (a b : Nat) :
    (s.stroke x y c).colour a b = if x = a ∧ y = b then c else s.colour a b := by
  rw [colour, stroke, List.findSome?_cons]
  by_cases hplace : x = a ∧ y = b
  · simp only [if_pos hplace, Option.getD_some]
  · simp only [if_neg hplace, colour]

/-- A place is inside the frame. -/
def Inside (s : Sheet) (x y : Nat) : Prop := x < s.width ∧ y < s.height

end Sheet

/-- What calls tell of a frame, if it is there: it was made and not released since. -/
def sheet? (k : Nat) : List Call → Option Sheet
  | [] => none
  | .create width height :: past =>
    match ((after past).request width height).1 with
    | .ok handle => if k = handle then some { width := width.toNat, height := height.toNat } else sheet? k past
    | .error _ => sheet? k past
  | .setPixel handle x y c :: past =>
    if k = handle then (sheet? k past).map (·.stroke x y c) else sheet? k past
  | .release handle :: past => if k = handle then none else sheet? k past

end Renderer

/-! ### Frames as they are told of -/

/-- A frame has the size that is told of it, a byte for each pixel, and the colours that are told. -/
structure Frame.Shows (f : Frame) (s : Renderer.Sheet) : Prop where
  width : f.width = s.width
  height : f.height = s.height
  size : f.pixels.size = f.width * f.height
  colour : ∀ x y, s.Inside x y → f.pixels.get! (y * f.width + x) = s.colour x y

namespace Frame.Shows

variable {f : Frame} {s : Renderer.Sheet}

/-- A new frame is zero everywhere. -/
theorem blank (width height : Nat) : (Frame.blank width height).Shows { width, height } where
  width := rfl
  height := rfl
  size := Bytes.size_fill _ _
  colour _ _ hinside := Bytes.get!_fill 0 (place_lt hinside.1 hinside.2)

theorem inside_iff (h : f.Shows s) (x y : Nat) : s.Inside x y ↔ x < f.width ∧ y < f.height := by
  rw [Renderer.Sheet.Inside, h.width, h.height]

/-- Setting a pixel sets its place and no other, for no two places are kept in one byte. -/
theorem set (h : f.Shows s) (x y : Nat) (c : UInt8) : (f.set x y c).Shows (s.stroke x y c) := by
  by_cases hinside : x < f.width ∧ y < f.height
  · have hset : f.set x y c = { f with pixels := f.pixels.set! (y * f.width + x) c } := by
      rw [Frame.set, Frame.place?, if_pos hinside]
    have hlt : y * f.width + x < f.pixels.size := by
      rw [h.size]
      exact place_lt hinside.1 hinside.2
    rw [hset]
    refine ⟨h.width, h.height, (ByteArray.size_set! ..).trans h.size, fun a b hab => ?_⟩
    have hab' : s.Inside a b := hab
    rw [s.colour_stroke, Bytes.get!_set! _ _ hlt, h.colour a b hab']
    have hinj : b * f.width + a = y * f.width + x ↔ x = a ∧ y = b := by
      constructor
      · intro heq
        have hmod := congrArg (· % f.width) heq
        have hdiv := congrArg (· / f.width) heq
        have ha := ((h.inside_iff a b).mp hab').1
        simp only [place_mod ha, place_mod hinside.1, place_div ha, place_div hinside.1] at hmod hdiv
        exact ⟨hmod.symm, hdiv.symm⟩
      · rintro ⟨rfl, rfl⟩
        rfl
    simp only [hinj]
  · have hset : f.set x y c = f := by
      rw [Frame.set, Frame.place?, if_neg hinside]
    rw [hset]
    refine ⟨h.width, h.height, h.size, fun a b hab => ?_⟩
    have hab' : s.Inside a b := hab
    rw [s.colour_stroke, if_neg, h.colour a b hab']
    rintro ⟨rfl, rfl⟩
    exact hinside ((h.inside_iff x y).mp hab')

/-- The colour of a pixel is the one that is told, and only places inside have one. -/
theorem get?_eq_some_iff (h : f.Shows s) (x y : Nat) (c : UInt8) :
    f.get? x y = some c ↔ s.Inside x y ∧ c = s.colour x y := by
  rw [Frame.get?, Option.map_eq_some_iff]
  constructor
  · rintro ⟨i, hplace, rfl⟩
    obtain ⟨hinside, rfl⟩ := Frame.place?_eq_some_iff.mp hplace
    have hinside' := (h.inside_iff x y).mpr hinside
    exact ⟨hinside', h.colour x y hinside'⟩
  · rintro ⟨hinside, rfl⟩
    exact ⟨_, Frame.place?_eq_some_iff.mpr ⟨(h.inside_iff x y).mp hinside, rfl⟩, h.colour x y hinside⟩

/-- A write outside the frame changes nothing. -/
theorem set_outside (h : f.Shows s) {x y : Nat} (houtside : ¬ s.Inside x y) (c : UInt8) : f.set x y c = f := by
  rw [h.inside_iff] at houtside
  rw [Frame.set, Frame.place?, if_neg houtside]

/-- What is painted are the rows of the frame with the colours that are told. -/
theorem paint_eq (h : f.Shows s) : f.paint = rowMajor s.width s.height s.colour := by
  rw [Frame.paint_eq h.size, rowMajor, rowMajor, h.width, h.height]
  refine List.flatMap_congr fun y hy => List.map_congr_left fun x hx => ?_
  rw [← h.width, h.colour x y ⟨List.mem_range.mp hx, List.mem_range.mp hy⟩]

end Frame.Shows

/-! ### All calls -/

namespace Renderer

/-- Each call leaves the frames as they are told of. -/
theorem shows_after (past : List Call) (k : Nat) : Option.Rel Frame.Shows ((after past).frame? k) (sheet? k past) := by
  induction past with
  | nil => exact .none
  | cons call past ih =>
    cases call with
    | create width height =>
      rw [after, Call.run, sheet?]
      rcases (after past).request_cases width height with ⟨-, hrequest⟩ | ⟨-, hrequest⟩ <;> rw [hrequest]
      · show Option.Rel Frame.Shows (((after past).create _ _).2.frame? k) (if k = (after past).frames.size then _ else _)
        rw [frame?_create]
        by_cases hk : k = (after past).frames.size
        · rw [if_pos hk, if_pos hk]
          exact .some (.blank _ _)
        · rw [if_neg hk, if_neg hk]
          exact ih
      · rw [frame?_push_none]
        exact ih
    | setPixel handle x y c =>
      rw [after, Call.run, sheet?, frame?_setPixel]
      by_cases hk : k = handle
      · rw [if_pos hk, if_pos hk]
        generalize (after past).frame? k = found at ih
        generalize sheet? k past = told at ih
        cases ih with
        | none => exact .none
        | some hshows => exact .some (hshows.set x y c)
      · rw [if_neg hk, if_neg hk]
        exact ih
    | release handle =>
      rw [after, Call.run, sheet?, frame?_release]
      by_cases hk : k = handle
      · rw [if_pos hk, if_pos hk]
        exact .none
      · rw [if_neg hk, if_neg hk]
        exact ih

/-- A frame that is told of is there, as it is told. -/
theorem exists_frame_of_sheet {past : List Call} {k : Nat} {s : Sheet} (hs : sheet? k past = some s) :
    ∃ f, (after past).frame? k = some f ∧ f.Shows s := by
  have hshows := shows_after past k
  rw [hs] at hshows
  generalize (after past).frame? k = found at hshows
  cases hshows with
  | some hf => exact ⟨_, rfl, hf⟩

/-- A frame that is there is told of, as it is. -/
theorem exists_sheet_of_frame {past : List Call} {k : Nat} {f : Frame} (hf : (after past).frame? k = some f) :
    ∃ s, sheet? k past = some s ∧ f.Shows s := by
  have hshows := shows_after past k
  rw [hf] at hshows
  generalize sheet? k past = told at hshows
  cases hshows with
  | some hs => exact ⟨_, rfl, hs⟩

theorem frame?_eq_none {past : List Call} {k : Nat} (hs : sheet? k past = none) : (after past).frame? k = none := by
  cases hframe : (after past).frame? k with
  | none => rfl
  | some f =>
    obtain ⟨s, hs', -⟩ := exists_sheet_of_frame hframe
    rw [hs] at hs'
    cases hs'

/-- The numbers of frames were given out one after the other, and never twice. -/
theorem handles_spec (past : List Call) : (handles past).Nodup ∧ ∀ k ∈ handles past, k < (after past).frames.size := by
  induction past with
  | nil => exact ⟨List.nodup_nil, nofun⟩
  | cons call past ih =>
    obtain ⟨hnodup, hlt⟩ := ih
    cases call with
    | create width height =>
      have hlater : ∀ k ∈ handles past, k < (after past).frames.size + 1 := fun k hk => Nat.lt_succ_of_lt (hlt k hk)
      rw [handles, after, Call.run, size_request]
      rcases (after past).request_cases width height with ⟨-, hrequest⟩ | ⟨-, hrequest⟩ <;> rw [hrequest]
      · refine ⟨List.nodup_cons.mpr ⟨fun hmem => Nat.lt_irrefl _ (hlt _ hmem), hnodup⟩, ?_⟩
        intro k hk
        rcases List.mem_cons.mp hk with rfl | hk
        · exact Nat.lt_succ_self _
        · exact hlater k hk
      · exact ⟨hnodup, hlater⟩
    | setPixel handle x y c =>
      rw [handles, after, Call.run, size_setPixel]
      exact ⟨hnodup, hlt⟩
    | release handle =>
      rw [handles, after, Call.run, size_release]
      exact ⟨hnodup, hlt⟩

/-- The sizes of frames have 32 bits. -/
theorem narrow_of_sheet {past : List Call} {k : Nat} {s : Sheet} (hs : sheet? k past = some s) :
    s.width < UInt32.size ∧ s.height < UInt32.size := by
  induction past generalizing s with
  | nil => cases hs
  | cons call past ih =>
    cases call with
    | create width height =>
      rw [sheet?] at hs
      split at hs
      · split at hs
        · cases hs
          exact ⟨width.toNat_lt, height.toNat_lt⟩
        · exact ih hs
      · exact ih hs
    | setPixel handle x y c =>
      rw [sheet?] at hs
      split at hs
      · obtain ⟨before, hbefore, rfl⟩ := Option.map_eq_some_iff.mp hs
        have hnarrow := ih hbefore
        exact hnarrow
      · exact ih hs
    | release handle =>
      rw [sheet?] at hs
      split at hs
      · cases hs
      · exact ih hs

/-- Frames that are found under the same numbers are the same. -/
theorem ext_frame? {r t : Renderer} (hsize : r.frames.size = t.frames.size) (h : ∀ k, r.frame? k = t.frame? k) : r = t := by
  have hframes : r.frames = t.frames := by
    refine Array.ext hsize fun k hr ht => ?_
    have hk := h k
    rw [frame?, frame?, Array.getD_eq_getD_getElem?, Array.getD_eq_getD_getElem?, Array.getElem?_eq_getElem hr,
      Array.getElem?_eq_getElem ht] at hk
    exact hk
  cases r
  cases t
  exact congrArg mk hframes

/-- What the calls so far tell of the frames is true of them. -/
structure Pictured (past : List Call) : Prop where
  /-- No number was given to two frames. -/
  handles : (handles past).Nodup
  /-- Another frame is made exactly if its pixels can stand in one piece, under a number that was never given out; otherwise
  all frames are as they were. -/
  created : ∀ width height : UInt32,
    ((∃ k, ((after past).request width height).1 = .ok k) ↔ width.toNat * height.toNat ≤ maxBytes) ∧
      (∀ k, ((after past).request width height).1 = .ok k → k ∉ Renderer.handles past) ∧
      ∀ text, ((after past).request width height).1 = .error text →
        ∀ k, ((after past).request width height).2.frame? k = (after past).frame? k
  /-- A pixel has a colour exactly if its frame is there and it lies inside; the colour is the one given to it last since
  the frame was made, or zero. -/
  pixel : ∀ k x y c, (after past).pixel? k x y = some c ↔
    ∃ s, sheet? k past = some s ∧ s.Inside x y ∧ c = s.colour x y
  /-- A write to a frame that is not there, or outside it, changes nothing. -/
  ignored : ∀ k x y c, (∀ s, sheet? k past = some s → ¬ s.Inside x y) → (after past).setPixel k x y c = after past
  /-- A frame is painted row by row, each of its pixels once and in its colour. -/
  paint : ∀ k s, sheet? k past = some s → (after past).paint k = rowMajor s.width s.height s.colour
  /-- A frame that is not there is not painted. -/
  unpainted : ∀ k, sheet? k past = none → (after past).paint k = []
  /-- No frame is looked into outside its bytes, nor divided by a width of zero, and all its places have 32 bits. -/
  bounds : ∀ k f, (after past).frame? k = some f → f.InBounds ∧ f.width < UInt32.size ∧ f.height < UInt32.size

/-- **A renderer is a map of pixels**, whatever is called and in whatever order: its frames have numbers of their own,
their pixels are what was set last, and they are painted as they are. -/
theorem pictured (past : List Call) : Pictured past where
  handles := (handles_spec past).1
  created width height := by
    rcases (after past).request_cases width height with ⟨hfits, hrequest⟩ | ⟨hlarge, hrequest⟩ <;> rw [hrequest]
    · refine ⟨iff_of_true ⟨_, rfl⟩ hfits, fun k hk hmem => ?_, nofun⟩
      cases hk
      exact Nat.lt_irrefl _ ((handles_spec past).2 _ hmem)
    · refine ⟨iff_of_false nofun (Nat.not_le.mpr hlarge), nofun, fun _ _ k => ?_⟩
      exact (after past).frame?_push_none k
  pixel k x y c := by
    rw [pixel?, Option.bind_eq_some_iff]
    constructor
    · rintro ⟨f, hframe, hget⟩
      obtain ⟨s, hs, hshows⟩ := exists_sheet_of_frame hframe
      exact ⟨s, hs, (hshows.get?_eq_some_iff x y c).mp hget⟩
    · rintro ⟨s, hs, hcolour⟩
      obtain ⟨f, hframe, hshows⟩ := exists_frame_of_sheet hs
      exact ⟨f, hframe, (hshows.get?_eq_some_iff x y c).mpr hcolour⟩
  ignored k x y c houtside := by
    refine ext_frame? (size_setPixel ..) fun j => ?_
    rw [frame?_setPixel]
    by_cases hj : j = k
    · subst hj
      rw [if_pos rfl]
      cases hframe : (after past).frame? j with
      | none => rfl
      | some f =>
        obtain ⟨s, hs, hshows⟩ := exists_sheet_of_frame hframe
        exact congrArg some (hshows.set_outside (houtside s hs) c)
    · rw [if_neg hj]
  paint k s hs := by
    obtain ⟨f, hframe, hshows⟩ := exists_frame_of_sheet hs
    rw [paint, hframe]
    exact hshows.paint_eq
  unpainted k hs := by
    rw [paint, frame?_eq_none hs]
  bounds k f hframe := by
    obtain ⟨s, hs, hshows⟩ := exists_sheet_of_frame hframe
    refine ⟨Frame.inBounds_of_size hshows.size, ?_⟩
    rw [hshows.width, hshows.height]
    exact narrow_of_sheet hs

end Renderer

end ScriptHost

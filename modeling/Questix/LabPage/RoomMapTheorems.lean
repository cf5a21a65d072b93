/-
Questix.LabPage.RoomMapTheorems — the room map is a faithful copy of the slice.

Cells are closed squares where they are moved (`square`) and half open where
they are counted (`area`, so that neighbours share no point).
-/
import Mathlib.Order.CompletePartialOrder
import Questix.LabPage.Scan3dCore
import Mathlib.Data.List.Pairwise
import Mathlib.Data.Set.Lattice
import Mathlib.Tactic.Linarith
import Mathlib.Tactic.NormNum
import Mathlib.Tactic.Ring

namespace Questix.LabPage.Scan3d

/-! ## Rectangles -/

/-- The points of a rectangle, its right and lower sides left out. -/
def Rectangle.area (r : Rectangle) : Set Point :=
  {p | (r.x ≤ p.1 ∧ p.1 < r.x + r.w) ∧ r.y ≤ p.2 ∧ p.2 < r.y + r.h}

/-- The points of a cell, likewise. -/
def cellArea (cell : ℚ) (column row : Nat) : Set Point :=
  {p | (column * cell ≤ p.1 ∧ p.1 < (column + 1) * cell) ∧
    row * cell ≤ p.2 ∧ p.2 < (row + 1) * cell}

/-- The cells of a row from `first` up to `stop`. -/
def runArea (cell : ℚ) (row first stop : Nat) : Set Point :=
  {p | (first * cell ≤ p.1 ∧ p.1 < stop * cell) ∧ row * cell ≤ p.2 ∧ p.2 < (row + 1) * cell}

variable {occupied : List Nat} {columns rows row : Nat} {cell : ℚ} {p : Point}

theorem cell_pos_of_row (h : row * cell ≤ p.2 ∧ p.2 < (row + 1) * cell) : 0 < cell := by
  have hlt := h.1.trans_lt h.2
  linarith

theorem runArea_succ {first stop : Nat} (h : first ≤ stop) :
    p ∈ runArea cell row first (stop + 1)
      ↔ p ∈ runArea cell row first stop ∨ p ∈ cellArea cell stop row := by
  unfold runArea cellArea
  simp only [Set.mem_ofPred_eq, Nat.cast_add, Nat.cast_one]
  constructor
  · rintro ⟨⟨hfirst, hstop⟩, hrow⟩
    by_cases hmiddle : p.1 < stop * cell
    · exact Or.inl ⟨⟨hfirst, hmiddle⟩, hrow⟩
    · exact Or.inr ⟨⟨not_lt.mp hmiddle, hstop⟩, hrow⟩
  · rintro (⟨⟨hfirst, hstop⟩, hrow⟩ | ⟨⟨hfirst, hstop⟩, hrow⟩)
    · have hpos := cell_pos_of_row hrow
      exact ⟨⟨hfirst, by linarith⟩, hrow⟩
    · have hpos := cell_pos_of_row hrow
      have hle : (first : ℚ) * cell ≤ stop * cell :=
        mul_le_mul_of_nonneg_right (by exact_mod_cast h) hpos.le
      exact ⟨⟨hle.trans hfirst, hstop⟩, hrow⟩

theorem mem_runArea_iff (first stop : Nat) :
    p ∈ runArea cell row first stop
      ↔ ∃ column, (first ≤ column ∧ column < stop) ∧ p ∈ cellArea cell column row := by
  induction stop with
  | zero =>
    constructor
    · rintro ⟨⟨hfirst, hstop⟩, hrow⟩
      have hpos := cell_pos_of_row hrow
      have hnonneg : (0 : ℚ) ≤ first * cell := by positivity
      simp only [Nat.cast_zero, zero_mul] at hstop
      linarith
    · rintro ⟨column, hcolumn, -⟩
      omega
  | succ stop ih =>
    by_cases h : first ≤ stop
    · rw [runArea_succ h, ih]
      constructor
      · rintro (⟨column, hcolumn, hp⟩ | hp)
        · exact ⟨column, by omega, hp⟩
        · exact ⟨stop, by omega, hp⟩
      · rintro ⟨column, hcolumn, hp⟩
        by_cases hlast : column = stop
        · rw [hlast] at hp
          exact Or.inr hp
        · exact Or.inl ⟨column, by omega, hp⟩
    · constructor
      · rintro ⟨⟨hfirst, hstop⟩, hrow⟩
        have hpos := cell_pos_of_row hrow
        have hle : ((stop + 1 : Nat) : ℚ) * cell ≤ first * cell :=
          mul_le_mul_of_nonneg_right (by exact_mod_cast (by omega : stop + 1 ≤ first)) hpos.le
        linarith
      · rintro ⟨column, hcolumn, -⟩
        omega

theorem area_run (first stop : Nat) :
    (runRectangle cell row first stop).area = runArea cell row first stop := by
  ext p
  unfold Rectangle.area runArea runRectangle
  simp only [Set.mem_ofPred_eq]
  have hright : (first : ℚ) * cell + (stop - first) * cell = stop * cell := by ring
  have hbottom : (row : ℚ) * cell + cell = (row + 1) * cell := by ring
  rw [hright, hbottom]

/-- What the scan of a row has found before column `k`: everything filled to the
left of `bound`, and from there on every cell is filled. -/
structure RowScan (occupied : List Nat) (columns : Nat) (cell : ℚ) (row k : Nat)
    (s : Option Nat × List Rectangle) : Prop where
  open_lt : ∀ first, s.1 = some first → first < k
  run : ∀ column, s.1.getD k ≤ column → column < k → filled occupied columns row column
  cover : ∀ p, (∃ r ∈ s.2, p ∈ r.area) ↔
    ∃ column < s.1.getD k, filled occupied columns row column ∧ p ∈ cellArea cell column row
  left : ∀ r ∈ s.2, ∀ p ∈ r.area, p.1 < (s.1.getD k : Nat) * cell
  apart : s.2.Pairwise fun r r' => Disjoint r.area r'.area

theorem RowScan.start : RowScan occupied columns cell row 0 (none, []) where
  open_lt first h := absurd h (by simp)
  run column _ h := absurd h (Nat.not_lt_zero _)
  cover p := by simp
  left r h := absurd h (by simp)
  apart := List.Pairwise.nil

theorem RowScan.step_filled {k : Nat} {s : Option Nat × List Rectangle}
    (h : RowScan occupied columns cell row k s) (hfilled : filled occupied columns row k) :
    RowScan occupied columns cell row (k + 1) (some (s.1.getD k), s.2) where
  open_lt first hfirst := by
    obtain rfl := Option.some.inj hfirst
    cases hs : s.1 with
    | none => exact Nat.lt_succ_self k
    | some first => exact (h.open_lt first hs).trans (Nat.lt_succ_self k)
  run column hle hlt := by
    by_cases hlast : column = k
    · rw [hlast]
      exact hfilled
    · exact h.run column hle (by omega)
  cover p := h.cover p
  left := h.left
  apart := h.apart

theorem RowScan.step_free {k : Nat} {s : Option Nat × List Rectangle}
    (h : RowScan occupied columns cell row k s) (hfree : ¬ filled occupied columns row k)
    (hs : s.1 = none) : RowScan occupied columns cell row (k + 1) (none, s.2) where
  open_lt first hfirst := absurd hfirst (by simp)
  run column hle hlt := by
    simp only [Option.getD_none] at hle
    omega
  cover p := by
    have hcover := h.cover p
    rw [hs] at hcover
    rw [hcover]
    simp only [Option.getD_none]
    constructor
    · rintro ⟨column, hlt, hp⟩
      exact ⟨column, by omega, hp⟩
    · rintro ⟨column, hlt, hfilled, hp⟩
      refine ⟨column, ?_, hfilled, hp⟩
      by_contra hge
      exact hfree ((by omega : column = k) ▸ hfilled)
  left r hr p hp := by
    have hlt := h.left r hr p hp
    have hpos : 0 ≤ cell := by
      by_contra hneg
      obtain ⟨column, -, -, -, hrow⟩ := (h.cover p).mp ⟨r, hr, hp⟩
      exact hneg (cell_pos_of_row hrow).le
    rw [hs] at hlt
    simp only [Option.getD_none, Nat.cast_add, Nat.cast_one] at hlt ⊢
    linarith
  apart := h.apart

/-- A free cell ends the run. -/
theorem RowScan.step_close {k first : Nat} {s : Option Nat × List Rectangle}
    (h : RowScan occupied columns cell row k s) (hfree : ¬ filled occupied columns row k)
    (hs : s.1 = some first) :
    RowScan occupied columns cell row (k + 1)
      (none, s.2 ++ [runRectangle cell row first k]) := by
  have hfirst := h.open_lt first hs
  have hrun := h.run
  have hcover := h.cover
  have hleft := h.left
  rw [hs] at hrun hcover hleft
  simp only [Option.getD_some] at hrun hcover hleft
  -- the run from `first` is one more rectangle, and what was there lies before it
  have hlast (p : Point) : p ∈ (runRectangle cell row first k).area ↔
      ∃ column, (first ≤ column ∧ column < k) ∧ p ∈ cellArea cell column row := by
    rw [area_run, mem_runArea_iff]
  constructor
  · exact fun _ hnone => absurd hnone (by simp)
  · intro column hle hlt
    simp only [Option.getD_none] at hle
    omega
  · intro p
    simp only [List.mem_append, List.mem_singleton, or_and_right, exists_or, exists_eq_left,
      Option.getD_none, hcover, hlast]
    constructor
    · rintro (⟨column, hlt, hp⟩ | ⟨column, hcolumn, hp⟩)
      · exact ⟨column, by omega, hp⟩
      · exact ⟨column, by omega, hrun column hcolumn.1 hcolumn.2, hp⟩
    · rintro ⟨column, hlt, hfilled, hp⟩
      by_cases hbefore : column < first
      · exact Or.inl ⟨column, hbefore, hfilled, hp⟩
      · have hne : column ≠ k := fun hk => hfree (hk ▸ hfilled)
        exact Or.inr ⟨column, by omega, hp⟩
  · intro r hr p hp
    simp only [Option.getD_none]
    have hcell : ∃ column < k + 1, p ∈ cellArea cell column row := by
      rcases List.mem_append.mp hr with hr | hr
      · obtain ⟨column, hlt, -, hp⟩ := (hcover p).mp ⟨r, hr, hp⟩
        exact ⟨column, by omega, hp⟩
      · rw [List.mem_singleton.mp hr] at hp
        obtain ⟨column, hcolumn, hp⟩ := (hlast p).mp hp
        exact ⟨column, by omega, hp⟩
    obtain ⟨column, hlt, ⟨-, hright⟩, hrow⟩ := hcell
    have hle : ((column : ℚ) + 1) * cell ≤ ((k + 1 : Nat) : ℚ) * cell :=
      mul_le_mul_of_nonneg_right (by exact_mod_cast hlt) (cell_pos_of_row hrow).le
    linarith
  · refine List.pairwise_append.mpr ⟨h.apart, List.pairwise_singleton _ _, ?_⟩
    intro r hr r' hr'
    rw [List.mem_singleton.mp hr', area_run]
    refine Set.disjoint_left.mpr fun p hp hp' => ?_
    have hlt := hleft r hr p hp
    exact absurd hp'.1.1 (not_le.mpr hlt)

theorem RowScan.step {k : Nat} {s : Option Nat × List Rectangle}
    (h : RowScan occupied columns cell row k s) :
    RowScan occupied columns cell row (k + 1) (rowStep occupied columns cell row s k) := by
  obtain ⟨start, out⟩ := s
  unfold rowStep
  by_cases hfilled : filled occupied columns row k
  · have hstep := h.step_filled hfilled
    cases start with
    | none => simpa [hfilled] using hstep
    | some first => simpa [hfilled] using hstep
  · cases start with
    | none => simpa [hfilled] using h.step_free hfilled rfl
    | some first => simpa [hfilled] using h.step_close hfilled rfl

theorem rowScan_range (k : Nat) :
    RowScan occupied columns cell row k
      ((List.range k).foldl (rowStep occupied columns cell row) (none, [])) := by
  induction k with
  | zero => exact RowScan.start
  | succ k ih =>
    rw [List.range_succ, List.foldl_append]
    exact ih.step

theorem rowRectangles_spec (occupied : List Nat) (columns : Nat) (cell : ℚ) (row : Nat) :
    (∀ p, (∃ r ∈ rowRectangles occupied columns cell row, p ∈ r.area) ↔
        ∃ column, filled occupied columns row column ∧ p ∈ cellArea cell column row) ∧
      (rowRectangles occupied columns cell row).Pairwise fun r r' => Disjoint r.area r'.area := by
  have hscan := @rowScan_range occupied columns row cell (columns + 1)
  -- the column behind the last one is never filled, so no run is open there
  have hbound : columns + 1 ≤ ((List.range (columns + 1)).foldl
      (rowStep occupied columns cell row) (none, [])).1.getD (columns + 1) := by
    by_contra hlt
    have hpast := hscan.run columns (by omega) (by omega)
    exact absurd hpast.1 (lt_irrefl _)
  refine ⟨fun p => ?_, hscan.apart⟩
  rw [rowRectangles, hscan.cover p]
  constructor
  · rintro ⟨column, -, hfilled, hp⟩
    exact ⟨column, hfilled, hp⟩
  · rintro ⟨column, hfilled, hp⟩
    have hlt := hfilled.1
    exact ⟨column, by omega, hfilled, hp⟩

/-- The points of the filled cells of a grid. -/
def filledArea (occupied : List Nat) (columns rows : Nat) (cell : ℚ) : Set Point :=
  {p | ∃ row < rows, ∃ column, filled occupied columns row column ∧ p ∈ cellArea cell column row}

theorem cellArea_row_unique {cell : ℚ} {column column' row row' : Nat} {p : Point}
    (h : p ∈ cellArea cell column row) (h' : p ∈ cellArea cell column' row') : row = row' := by
  have hpos := cell_pos_of_row h.2
  have hlt : (row : ℚ) * cell < (row' + 1) * cell := h.2.1.trans_lt h'.2.2
  have hlt' : (row' : ℚ) * cell < (row + 1) * cell := h'.2.1.trans_lt h.2.2
  have h1 : row < row' + 1 := by exact_mod_cast lt_of_mul_lt_mul_right hlt hpos.le
  have h2 : row' < row + 1 := by exact_mod_cast lt_of_mul_lt_mul_right hlt' hpos.le
  omega

theorem gridRectangles_cover (occupied : List Nat) (columns rows : Nat) (cell : ℚ) :
    (⋃ r ∈ gridRectangles occupied columns rows cell, r.area)
      = filledArea occupied columns rows cell := by
  ext p
  simp only [Set.mem_iUnion, exists_prop, gridRectangles, List.mem_flatMap, List.mem_range,
    filledArea, Set.mem_ofPred_eq]
  constructor
  · rintro ⟨r, ⟨row, hrow, hr⟩, hp⟩
    exact ⟨row, hrow, ((rowRectangles_spec occupied columns cell row).1 p).mp ⟨r, hr, hp⟩⟩
  · rintro ⟨row, hrow, hfilled⟩
    obtain ⟨r, hr, hp⟩ := ((rowRectangles_spec occupied columns cell row).1 p).mpr hfilled
    exact ⟨r, ⟨row, hrow, hr⟩, hp⟩

theorem gridRectangles_apart (occupied : List Nat) (columns rows : Nat) (cell : ℚ) :
    (gridRectangles occupied columns rows cell).Pairwise
      fun r r' => Disjoint r.area r'.area := by
  unfold gridRectangles
  refine List.pairwise_flatMap.mpr
    ⟨fun row _ => (rowRectangles_spec occupied columns cell row).2, ?_⟩
  refine List.pairwise_lt_range.imp fun {row row'} hlt r hr r' hr' => ?_
  refine Set.disjoint_left.mpr fun p hp hp' => ?_
  obtain ⟨column, -, hcell⟩ :=
    ((rowRectangles_spec occupied columns cell row).1 p).mp ⟨r, hr, hp⟩
  obtain ⟨column', -, hcell'⟩ :=
    ((rowRectangles_spec occupied columns cell row').1 p).mp ⟨r', hr', hp'⟩
  exact absurd (cellArea_row_unique hcell hcell') hlt.ne

/-! ## The array of the map -/

theorem getD_rows {columns rows row column : Nat} (value : Nat → Nat → Nat)
    (hrow : row < rows) (hcolumn : column < columns) :
    ((List.range rows).flatMap fun row => (List.range columns).map (value row)).getD
      (row * columns + column) 0 = value row column := by
  have hlen (n : Nat) : ((List.range n).flatMap fun row =>
      (List.range columns).map (value row)).length = n * columns := by
    induction n with
    | zero => simp
    | succ n ih => rw [List.range_succ, List.flatMap_append, List.length_append, ih]; simp; ring
  induction rows with
  | zero => omega
  | succ rows ih =>
    rw [List.range_succ, List.flatMap_append, List.getD_eq_getElem?_getD]
    by_cases hlast : row = rows
    · subst hlast
      rw [List.getElem?_append_right (by rw [hlen]; omega), hlen]
      simp [hcolumn]
    · have hlt : row * columns + column < rows * columns := by
        calc row * columns + column < row * columns + columns := by omega
          _ = (row + 1) * columns := by ring
          _ ≤ rows * columns := Nat.mul_le_mul_right _ (by omega)
      rw [List.getElem?_append_left (by rw [hlen]; exact hlt), ← List.getD_eq_getElem?_getD]
      exact ih (by omega)

/-! ## The motion -/

/-- A turn by a quarter or none, and then a shift: never a mirror image. -/
structure Motion where
  quarter : Bool
  shift : Point

/-- The quarter turn takes the first axis to the second one turned round:
`(x, y) ↦ (y, -x)`, whose determinant is 1. -/
def Motion.move (motion : Motion) (p : Point) : Point :=
  if motion.quarter then (p.2 + motion.shift.1, -p.1 + motion.shift.2)
  else (p.1 + motion.shift.1, p.2 + motion.shift.2)

/-- A cell of the planner's grid with its border. -/
def square (column row : Int) : Set Point :=
  {p | (column * ROOM_CELL ≤ p.1 ∧ p.1 ≤ (column + 1) * ROOM_CELL) ∧
    row * ROOM_CELL ≤ p.2 ∧ p.2 ≤ (row + 1) * ROOM_CELL}

/-- The drawing frame. -/
def frame : Set Point :=
  {p | (0 ≤ p.1 ∧ p.1 ≤ ROOM_SIZE.width) ∧ 0 ≤ p.2 ∧ p.2 ≤ ROOM_SIZE.height}

theorem square_corner (column row : Int) :
    (column * ROOM_CELL, row * ROOM_CELL) ∈ square column row := by
  unfold square ROOM_CELL
  simp only [Set.mem_ofPred_eq, le_refl, true_and]
  constructor <;> linarith

theorem square_far_corner (column row : Int) :
    ((column + 1) * ROOM_CELL, (row + 1) * ROOM_CELL) ∈ square column row := by
  unfold square ROOM_CELL
  simp only [Set.mem_ofPred_eq, le_refl, and_true]
  constructor <;> linarith

theorem square_injective {column row column' row' : Int}
    (h : square column row = square column' row') : column = column' ∧ row = row' := by
  have hnear := square_corner column row
  have hnear' := square_corner column' row'
  rw [h] at hnear
  rw [← h] at hnear'
  have hle : ∀ a b : Int, (a : ℚ) * ROOM_CELL ≤ b * ROOM_CELL → a ≤ b := by
    intro a b hab
    have hpos : 0 < ROOM_CELL := by unfold ROOM_CELL; norm_num
    exact_mod_cast le_of_mul_le_mul_right hab hpos
  exact ⟨le_antisymm (hle _ _ hnear'.1.1) (hle _ _ hnear.1.1),
    le_antisymm (hle _ _ hnear'.2.1) (hle _ _ hnear.2.1)⟩

theorem square_subset_frame (column row : Int) :
    square column row ⊆ frame ↔ (0 ≤ column ∧ column < 60) ∧ 0 ≤ row ∧ row < 40 := by
  unfold frame ROOM_SIZE
  constructor
  · intro h
    have hnear := h (square_corner column row)
    have hfar := h (square_far_corner column row)
    unfold ROOM_CELL at hnear hfar
    obtain ⟨⟨hleft, -⟩, htop, -⟩ := hnear
    obtain ⟨⟨-, hright⟩, -, hbottom⟩ := hfar
    dsimp only at hleft htop hright hbottom
    have h1 : (0 : ℚ) ≤ column := by linarith
    have h2 : (0 : ℚ) ≤ row := by linarith
    have h3 : (column : ℚ) + 1 ≤ 60 := by linarith
    have h4 : (row : ℚ) + 1 ≤ 40 := by linarith
    have h3' : column + 1 ≤ 60 := by exact_mod_cast h3
    have h4' : row + 1 ≤ 40 := by exact_mod_cast h4
    exact ⟨⟨by exact_mod_cast h1, by omega⟩, by exact_mod_cast h2, by omega⟩
  · rintro ⟨⟨h1, h3⟩, h2, h4⟩ p ⟨⟨hleft, hright⟩, htop, hbottom⟩
    unfold ROOM_CELL at hleft hright htop hbottom
    have h1' : (0 : ℚ) ≤ column := by exact_mod_cast h1
    have h2' : (0 : ℚ) ≤ row := by exact_mod_cast h2
    have h3' : (column : ℚ) + 1 ≤ 60 := by exact_mod_cast h3
    have h4' : (row : ℚ) + 1 ≤ 40 := by exact_mod_cast h4
    exact ⟨⟨by linarith, by linarith⟩, by linarith, by linarith⟩

theorem mapColumns_eq (grid : Grid) : mapColumns grid = 60 := by
  have h : jsRound (ROOM_SIZE.width / grid.cell) = 60 := by
    unfold jsRound Grid.cell ROOM_CELL ROOM_SIZE
    norm_num
  rw [mapColumns, h]
  rfl

theorem mapRows_eq (grid : Grid) : mapRows grid = 40 := by
  have h : jsRound (ROOM_SIZE.height / grid.cell) = 40 := by
    unfold jsRound Grid.cell ROOM_CELL ROOM_SIZE
    norm_num
  rw [mapRows, h]
  rfl

namespace Slice

variable (slice : Slice) (rotated : Bool) (chosen : Point)

/-- By how many cells the frame stands off the turned scan. -/
def steps : Int × Int :=
  (⌊chosen.1 / slice.grid.cell + 1 / 2⌋, ⌊chosen.2 / slice.grid.cell + 1 / 2⌋)

/-- Where a cell of the scan goes on the map. -/
def target (sc sr : Int) : Int × Int :=
  if rotated then (sr - (slice.steps chosen).1, slice.grid.columns - 1 - sc - (slice.steps chosen).2)
  else (sc - (slice.steps chosen).1, sr - (slice.steps chosen).2)

/-- The motion of the whole scan. -/
def motion : Motion where
  quarter := rotated
  shift :=
    if rotated then
      (-(slice.steps chosen).1 * ROOM_CELL,
        (slice.grid.columns - (slice.steps chosen).2) * ROOM_CELL)
    else (-(slice.steps chosen).1 * ROOM_CELL, -(slice.steps chosen).2 * ROOM_CELL)

theorem move_square (sc sr : Int) :
    (slice.motion rotated chosen).move '' square sc sr
      = square (slice.target rotated chosen sc sr).1 (slice.target rotated chosen sc sr).2 := by
  obtain ⟨ox, oy⟩ : ∃ ox oy, slice.steps chosen = (ox, oy) := ⟨_, _, rfl⟩
  ext ⟨x, y⟩
  unfold motion target Motion.move square ROOM_CELL
  simp only [Set.mem_image, Set.mem_ofPred_eq, Prod.exists, Prod.ext_iff]
  cases rotated with
  | false =>
    simp only [Bool.false_eq_true, if_false, Int.cast_sub]
    constructor
    · rintro ⟨a, b, ⟨⟨h1, h2⟩, h3, h4⟩, rfl, rfl⟩
      exact ⟨⟨by linarith, by linarith⟩, by linarith, by linarith⟩
    · rintro ⟨⟨h1, h2⟩, h3, h4⟩
      exact ⟨x + (slice.steps chosen).1 * (1 / 10), y + (slice.steps chosen).2 * (1 / 10),
        ⟨⟨by linarith, by linarith⟩, by linarith, by linarith⟩, by ring, by ring⟩
  | true =>
    simp only [if_true, Int.cast_sub, Int.cast_natCast, Int.cast_one]
    constructor
    · rintro ⟨a, b, ⟨⟨h1, h2⟩, h3, h4⟩, rfl, rfl⟩
      exact ⟨⟨by linarith, by linarith⟩, by linarith, by linarith⟩
    · rintro ⟨⟨h1, h2⟩, h3, h4⟩
      exact ⟨(slice.grid.columns - (slice.steps chosen).2) * (1 / 10) - y,
        x + (slice.steps chosen).1 * (1 / 10),
        ⟨⟨by linarith, by linarith⟩, by linarith, by linarith⟩, by ring, by ring⟩

theorem source_eq_iff (column row : Nat) (sc sr : Int) :
    slice.source rotated chosen column row = (sc, sr)
      ↔ slice.target rotated chosen sc sr = ((column : Int), (row : Int)) := by
  have hu : ⌊chosen.1 / slice.grid.cell + column + 1 / 2⌋ = (slice.steps chosen).1 + column := by
    rw [add_right_comm, Int.floor_add_natCast]
    rfl
  have hv : ⌊chosen.2 / slice.grid.cell + row + 1 / 2⌋ = (slice.steps chosen).2 + row := by
    rw [add_right_comm, Int.floor_add_natCast]
    rfl
  unfold source target
  rw [hu, hv]
  cases rotated with
  | false =>
    simp only [Bool.false_eq_true, if_false, Prod.mk.injEq]
    omega
  | true =>
    simp only [if_true, Prod.mk.injEq]
    omega

/-- A cell of the map is occupied where enough of the scan lies in its cell. -/
theorem filled_iff {column row : Nat} (hcolumn : column < 60) (hrow : row < 40) :
    filled (slice.occupied rotated chosen 60 40) 60 row column ↔
      ∃ sc < slice.grid.columns, ∃ sr < slice.grid.rows,
        slice.target rotated chosen sc sr = ((column : Int), (row : Int)) ∧
          slice.minHits ≤ slice.hits.getD (sr * slice.grid.columns + sc) 0 := by
  obtain ⟨⟨sc, sr⟩, hsource⟩ : ∃ s, slice.source rotated chosen column row = s := ⟨_, rfl⟩
  have htarget := (slice.source_eq_iff rotated chosen column row sc sr).mp hsource
  have hvalue : (slice.occupied rotated chosen 60 40).getD (row * 60 + column) 0
      = slice.cellValue rotated chosen row column :=
    getD_rows _ hrow hcolumn
  unfold filled
  rw [hvalue]
  unfold cellValue
  rw [hsource]
  constructor
  · rintro ⟨-, hne⟩
    dsimp only at hne
    split_ifs at hne with hout hhits
    · exact absurd rfl hne
    · obtain ⟨a, rfl⟩ := Int.eq_ofNat_of_zero_le (by omega : 0 ≤ sc)
      obtain ⟨b, rfl⟩ := Int.eq_ofNat_of_zero_le (by omega : 0 ≤ sr)
      have hindex : ((b : Int) * slice.grid.columns + a).toNat = b * slice.grid.columns + a := by
        exact_mod_cast Int.toNat_natCast (b * slice.grid.columns + a)
      rw [hindex] at hhits
      exact ⟨a, by omega, b, by omega, htarget, hhits⟩
    · exact absurd rfl hne
  · rintro ⟨a, ha, b, hb, hab, hhits⟩
    have hsame := (slice.source_eq_iff rotated chosen column row a b).mpr hab
    obtain ⟨rfl, rfl⟩ := Prod.mk.inj (hsource.symm.trans hsame)
    have hindex : ((b : Int) * slice.grid.columns + a).toNat = b * slice.grid.columns + a := by
      exact_mod_cast Int.toNat_natCast (b * slice.grid.columns + a)
    dsimp only
    rw [hindex, if_neg (by omega), if_pos hhits]
    exact ⟨hcolumn, one_ne_zero⟩

end Slice

/-- The map is the slice, moved as one rigid piece: every cell whose image falls
inside the frame stands on it exactly once, occupied exactly where its hits
reach the limit, and nothing else is occupied. The obstacles of any grid cover
its occupied cells and share no point. -/
theorem room_copies_slice (slice : Slice) (options : RoomOptions) :
    (∃ motion : Motion, ∃ cells : List Nat,
      motion.quarter = (scanRoom slice options).rotated ∧
      (∀ sc < slice.grid.columns, ∀ sr < slice.grid.rows,
        motion.move '' square sc sr ⊆ frame →
          (∃! at' : Nat × Nat, (at'.1 < 60 ∧ at'.2 < 40) ∧
            motion.move '' square sc sr = square at'.1 at'.2) ∧
          ∀ column row : Nat, column < 60 → row < 40 →
            motion.move '' square sc sr = square column row →
            (filled cells 60 row column ↔
              slice.minHits ≤ slice.hits.getD (sr * slice.grid.columns + sc) 0)) ∧
      (∀ column row : Nat, column < 60 → row < 40 → filled cells 60 row column →
        ∃ sc < slice.grid.columns, ∃ sr < slice.grid.rows,
          motion.move '' square sc sr = square column row) ∧
      (⋃ r ∈ (scanRoom slice options).map.obstacles, r.area)
        = filledArea cells 60 40 ROOM_CELL) ∧
      ∀ occupied columns rows cell,
        (gridRectangles occupied columns rows cell).Pairwise
            (fun r r' => Disjoint r.area r'.area) ∧
          (⋃ r ∈ gridRectangles occupied columns rows cell, r.area)
            = filledArea occupied columns rows cell := by
  refine ⟨?_, fun occupied columns rows cell =>
    ⟨gridRectangles_apart _ _ _ _, gridRectangles_cover _ _ _ _⟩⟩
  obtain ⟨rotated, hrotated⟩ : ∃ rotated, (scanRoom slice options).rotated = rotated := ⟨_, rfl⟩
  obtain ⟨chosen, hchosen⟩ : ∃ chosen, (scanRoom slice options).offset = chosen := ⟨_, rfl⟩
  have hobstacles : (scanRoom slice options).map.obstacles
      = gridRectangles (slice.occupied rotated chosen 60 40) 60 40 ROOM_CELL := by
    rw [← hrotated, ← hchosen, ← mapColumns_eq slice.grid, ← mapRows_eq slice.grid]
    rfl
  refine ⟨slice.motion rotated chosen, slice.occupied rotated chosen 60 40, hrotated.symm,
    ?_, ?_, ?_⟩
  · intro sc hsc sr hsr hinside
    rw [slice.move_square, square_subset_frame] at hinside
    obtain ⟨⟨h1, h2⟩, h3, h4⟩ := hinside
    obtain ⟨column, hcolumn⟩ := Int.eq_ofNat_of_zero_le h1
    obtain ⟨row, hrow⟩ := Int.eq_ofNat_of_zero_le h3
    have htarget : slice.target rotated chosen sc sr = ((column : Int), (row : Int)) := Prod.ext hcolumn hrow
    constructor
    · refine ⟨(column, row), ⟨⟨by omega, by omega⟩, ?_⟩, ?_⟩
      · rw [slice.move_square, htarget]
      · rintro ⟨column', row'⟩ ⟨-, himage⟩
        rw [slice.move_square, htarget] at himage
        obtain ⟨hc, hr⟩ := square_injective himage
        dsimp only at hc hr
        exact Prod.ext (by omega) (by omega)
    · intro column' row' hcolumn' hrow' himage
      rw [slice.move_square, htarget] at himage
      obtain ⟨hc, hr⟩ := square_injective himage
      obtain rfl : column = column' := by omega
      obtain rfl : row = row' := by omega
      rw [slice.filled_iff rotated chosen hcolumn' hrow']
      constructor
      · rintro ⟨sc', hsc', sr', hsr', htarget', hhits⟩
        have hsource := (slice.source_eq_iff rotated chosen column row sc sr).mpr htarget
        have hsource' := (slice.source_eq_iff rotated chosen column row sc' sr').mpr htarget'
        obtain ⟨hc', hr'⟩ := Prod.mk.inj (hsource.symm.trans hsource')
        obtain rfl : sc = sc' := by omega
        obtain rfl : sr = sr' := by omega
        exact hhits
      · exact fun hhits => ⟨sc, hsc, sr, hsr, htarget, hhits⟩
  · intro column row hcolumn hrow hfilled
    obtain ⟨sc, hsc, sr, hsr, htarget, -⟩ :=
      (slice.filled_iff rotated chosen hcolumn hrow).mp hfilled
    refine ⟨sc, hsc, sr, hsr, ?_⟩
    rw [slice.move_square, htarget]
  · rw [hobstacles]
    exact gridRectangles_cover _ _ _ _

end Questix.LabPage.Scan3d

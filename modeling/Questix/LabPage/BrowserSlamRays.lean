/-
Questix.LabPage.BrowserSlamRays — what a ray does to the map.

A ray is where its remaining columns and rows say (`OnRay`). Along its longer
side it goes on by one with each step, so what is left of that side (`toGo`) and
of the grid (`room`) goes down: the first gives that no cell is visited twice,
the second that the steps suffice.
-/
import Questix.LabPage.BrowserSlam

namespace Questix.LabPage.UsbSlam

open Questix.Lib

/-! ## One step -/

/-- The ray is at `(x, y)` with `a` columns and `b` rows to go. -/
structure OnRay (plan : RayPlan) (x y e a b : ℤ) : Prop where
  signs : (plan.sx = 1 ∨ plan.sx = -1) ∧ (plan.sy = 1 ∨ plan.sy = -1)
  column : plan.x1 = x + plan.sx * a
  row : plan.y1 = y + plan.sy * b
  line : Towards plan.dx (-plan.dy) a b e

/-- What is to go along the longer side. -/
def toGo (plan : RayPlan) (x y : ℤ) : ℤ :=
  if -plan.dy ≤ plan.dx then plan.sx * (plan.x1 - x) else plan.sy * (plan.y1 - y)

/-- The steps along the longer side until the grid is left. -/
def room (plan : RayPlan) (x y : ℤ) : ℤ :=
  if -plan.dy ≤ plan.dx then if plan.sx = 1 then MAP_SIZE - x else x + 1
  else if plan.sy = 1 then MAP_SIZE - y else y + 1

/-- The cell after `(x, y)`. -/
def nextX (plan : RayPlan) (x e : ℤ) : ℤ := if plan.dy ≤ 2 * e then x + plan.sx else x
def nextY (plan : RayPlan) (y e : ℤ) : ℤ := if 2 * e ≤ plan.dx then y + plan.sy else y
def nextE (plan : RayPlan) (e : ℤ) : ℤ :=
  e + (if plan.dy ≤ 2 * e then plan.dy else 0) + if 2 * e ≤ plan.dx then plan.dx else 0

section Steps

variable {plan : RayPlan} {x y e a b : ℤ} {grid : Grid}

theorem OnRay.ended_iff (h : OnRay plan x y e a b) :
    (x = plan.x1 ∧ y = plan.y1) ↔ a = 0 ∧ b = 0 := by
  have hcolumn := h.column
  have hrow := h.row
  obtain ⟨hx | hx, hy | hy⟩ := h.signs <;> rw [hx] at hcolumn <;> rw [hy] at hrow <;> omega

theorem OnRay.step (h : OnRay plan x y e a b) (hgo : ¬ (x = plan.x1 ∧ y = plan.y1)) :
    OnRay plan (nextX plan x e) (nextY plan y e) (nextE plan e)
      (if plan.dy ≤ 2 * e then a - 1 else a) (if 2 * e ≤ plan.dx then b - 1 else b) where
  signs := h.signs
  column := by
    have hcolumn := h.column
    unfold nextX
    split
    · rw [hcolumn]
      ring
    · exact hcolumn
  row := by
    have hrow := h.row
    unfold nextY
    split
    · rw [hrow]
      ring
    · exact hrow
  line := by
    have hstep := h.line.step (fun hend => hgo (h.ended_iff.2 hend))
    rw [neg_neg] at hstep
    have herror : nextE plan e = e - (if plan.dy ≤ 2 * e then -plan.dy else 0) +
        if 2 * e ≤ plan.dx then plan.dx else 0 := by
      unfold nextE
      split <;> ring
    rw [herror]
    exact hstep

theorem OnRay.longer (h : OnRay plan x y e a b) :
    (-plan.dy ≤ plan.dx → nextX plan x e = x + plan.sx) ∧
      (plan.dx ≤ -plan.dy → nextY plan y e = y + plan.sy) := by
  refine ⟨fun hside => if_pos ?_, fun hside => if_pos (h.line.row hside)⟩
  have := h.line.column hside
  rwa [neg_neg] at this

theorem OnRay.toGo_step (h : OnRay plan x y e a b) :
    toGo plan (nextX plan x e) (nextY plan y e) = toGo plan x y - 1 := by
  unfold toGo
  split
  · rename_i hside
    rw [h.longer.1 hside]
    obtain ⟨hx | hx, -⟩ := h.signs <;> rw [hx] <;> ring
  · rename_i hside
    rw [h.longer.2 (not_le.1 hside).le]
    obtain ⟨-, hy | hy⟩ := h.signs <;> rw [hy] <;> ring

theorem OnRay.room_step (h : OnRay plan x y e a b) :
    room plan (nextX plan x e) (nextY plan y e) = room plan x y - 1 := by
  unfold room
  split
  · rename_i hside
    rw [h.longer.1 hside]
    obtain ⟨hx | hx, -⟩ := h.signs
    · rw [if_pos hx, if_pos hx, hx]
      ring
    · rw [if_neg (by omega), if_neg (by omega), hx]
      ring
  · rename_i hside
    rw [h.longer.2 (not_le.1 hside).le]
    obtain ⟨-, hy | hy⟩ := h.signs
    · rw [if_pos hy, if_pos hy, hy]
      ring
    · rw [if_neg (by omega), if_neg (by omega), hy]
      ring

theorem room_pos (h : inGrid x y) : 0 < room plan x y := by
  obtain ⟨hx, hy, hx', hy'⟩ := h
  unfold room
  split <;> split <;> omega

theorem OnRay.inGrid_step (h : OnRay plan x y e a b) (hgo : ¬ (x = plan.x1 ∧ y = plan.y1))
    (hend : inGrid plan.x1 plan.y1) (hin : inGrid x y) :
    inGrid (nextX plan x e) (nextY plan y e) := by
  have hnext := h.step hgo
  have hcolumn := hnext.column
  have hrow := hnext.row
  have ha := hnext.line.columns.1
  have hb := hnext.line.rows.1
  obtain ⟨hx1, hy1, hx1', hy1'⟩ := hend
  obtain ⟨hx0, hy0, hx0', hy0'⟩ := hin
  have hX : nextX plan x e = x + plan.sx ∨ nextX plan x e = x := by
    unfold nextX
    split
    · exact .inl rfl
    · exact .inr rfl
  have hY : nextY plan y e = y + plan.sy ∨ nextY plan y e = y := by
    unfold nextY
    split
    · exact .inl rfl
    · exact .inr rfl
  unfold inGrid
  obtain ⟨hx | hx, hy | hy⟩ := h.signs <;> rw [hx] at hX hcolumn <;> rw [hy] at hY hrow <;> omega

theorem rayLoop_succ_left (steps : ℕ) (h : ¬ inGrid x y) :
    rayLoop plan (steps + 1) grid x y e = ⟨grid, [], .left⟩ := by
  unfold rayLoop
  rw [if_pos h]

theorem rayLoop_succ_reached (steps : ℕ) (h : inGrid x y) (hend : x = plan.x1 ∧ y = plan.y1) :
    rayLoop plan (steps + 1) grid x y e =
      ⟨Function.update grid (cellIndex x y) (min 20 (grid (cellIndex x y) + 5)), [(x, y)],
        .reached⟩ := by
  unfold rayLoop
  rw [if_neg (not_not.2 h)]
  exact if_pos hend

/-- The map with one value lowered. -/
def lower (grid : Grid) (x y : ℤ) : Grid :=
  Function.update grid (cellIndex x y) (max (-20) (grid (cellIndex x y) - 1))

theorem rayLoop_succ_step (steps : ℕ) (h : inGrid x y) (hgo : ¬ (x = plan.x1 ∧ y = plan.y1)) :
    rayLoop plan (steps + 1) grid x y e =
      { rayLoop plan steps (lower grid x y) (nextX plan x e) (nextY plan y e) (nextE plan e) with
        visited := (x, y) :: (rayLoop plan steps (lower grid x y) (nextX plan x e)
          (nextY plan y e) (nextE plan e)).visited } := by
  rw [rayLoop]
  rw [if_neg (not_not.2 h)]
  exact if_neg hgo

/-! ## The loop -/

theorem ending_rayLoop (hside : inGrid plan.x1 plan.y1 → inGrid x y)
    (h : OnRay plan x y e a b) {steps : ℕ} (hlow : 0 ≤ room plan x y)
    (hroom : room plan x y < steps) :
    (rayLoop plan steps grid x y e).ending =
      if inGrid plan.x1 plan.y1 then .reached else .left := by
  induction steps generalizing grid x y e a b with
  | zero => exact absurd hroom (by omega)
  | succ steps ih =>
    by_cases hin : inGrid x y
    · by_cases hend : x = plan.x1 ∧ y = plan.y1
      · rw [rayLoop_succ_reached steps hin hend, if_pos]
        rw [← hend.1, ← hend.2]
        exact hin
      · rw [rayLoop_succ_step steps hin hend]
        have hpos := @room_pos plan x y hin
        refine ih (fun htarget => h.inGrid_step hend htarget hin) (h.step hend) ?_ ?_
        · rw [h.room_step]
          omega
        · rw [h.room_step]
          omega
    · rw [rayLoop_succ_left steps hin, if_neg fun htarget => hin (hside htarget)]

theorem toGo_rayLoop (h : OnRay plan x y e a b) (steps : ℕ) :
    ∀ c ∈ (rayLoop plan steps grid x y e).visited, toGo plan c.1 c.2 ≤ toGo plan x y := by
  induction steps generalizing grid x y e a b with
  | zero => exact fun c hc => absurd hc List.not_mem_nil
  | succ steps ih =>
    intro c hc
    by_cases hin : inGrid x y
    · by_cases hend : x = plan.x1 ∧ y = plan.y1
      · rw [rayLoop_succ_reached steps hin hend] at hc
        rw [List.mem_singleton.1 hc]
      · rw [rayLoop_succ_step steps hin hend] at hc
        rcases List.mem_cons.1 hc with rfl | hc
        · exact le_rfl
        · have := ih (h.step hend) c hc
          rw [h.toGo_step] at this
          omega
    · rw [rayLoop_succ_left steps hin] at hc
      cases hc

theorem not_mem_rayLoop (h : OnRay plan x y e a b) (hgo : ¬ (x = plan.x1 ∧ y = plan.y1))
    (steps : ℕ) : (x, y) ∉
      (rayLoop plan steps grid (nextX plan x e) (nextY plan y e) (nextE plan e)).visited := by
  intro hmem
  have := toGo_rayLoop (h.step hgo) steps _ hmem
  rw [h.toGo_step] at this
  dsimp only at this
  omega

theorem nodup_rayLoop (h : OnRay plan x y e a b) (steps : ℕ) :
    (rayLoop plan steps grid x y e).visited.Nodup := by
  induction steps generalizing grid x y e a b with
  | zero => exact List.nodup_nil
  | succ steps ih =>
    by_cases hin : inGrid x y
    · by_cases hend : x = plan.x1 ∧ y = plan.y1
      · rw [rayLoop_succ_reached steps hin hend]
        exact List.nodup_singleton _
      · rw [rayLoop_succ_step steps hin hend]
        exact List.nodup_cons.2 ⟨not_mem_rayLoop h hend steps, ih (h.step hend)⟩
    · rw [rayLoop_succ_left steps hin]
      exact List.nodup_nil

theorem inGrid_of_mem_rayLoop (steps : ℕ) :
    ∀ c ∈ (rayLoop plan steps grid x y e).visited, inGrid c.1 c.2 := by
  induction steps generalizing grid x y e with
  | zero => exact fun c hc => absurd hc List.not_mem_nil
  | succ steps ih =>
    intro c hc
    by_cases hin : inGrid x y
    · by_cases hend : x = plan.x1 ∧ y = plan.y1
      · rw [rayLoop_succ_reached steps hin hend] at hc
        rw [List.mem_singleton.1 hc]
        exact hin
      · rw [rayLoop_succ_step steps hin hend] at hc
        rcases List.mem_cons.1 hc with rfl | hc
        · exact hin
        · exact ih c hc
    · rw [rayLoop_succ_left steps hin] at hc
      cases hc

theorem end_mem_rayLoop (steps : ℕ)
    (hreached : (rayLoop plan steps grid x y e).ending = .reached) :
    (plan.x1, plan.y1) ∈ (rayLoop plan steps grid x y e).visited := by
  induction steps generalizing grid x y e with
  | zero => cases hreached
  | succ steps ih =>
    by_cases hin : inGrid x y
    · by_cases hend : x = plan.x1 ∧ y = plan.y1
      · rw [rayLoop_succ_reached steps hin hend, hend.1, hend.2]
        exact List.mem_singleton_self _
      · rw [rayLoop_succ_step steps hin hend] at hreached ⊢
        exact List.mem_cons_of_mem _ (ih hreached)
    · rw [rayLoop_succ_left steps hin] at hreached
      cases hreached

theorem cellIndex_inj {x' y' : ℤ} (h : inGrid x y) (h' : inGrid x' y')
    (heq : cellIndex x y = cellIndex x' y') : (x, y) = (x', y') := by
  unfold inGrid MAP_SIZE at h h'
  unfold cellIndex MAP_SIZE at heq
  rw [Prod.mk.injEq]
  omega

/-- What a ray makes of a value of the map. -/
def rayValue (visited : List (ℤ × ℤ)) (x1 y1 : ℤ) (c : ℤ × ℤ) (value : ℤ) : ℤ :=
  if c ∉ visited then value
  else if c = (x1, y1) then min 20 (value + 5) else max (-20) (value - 1)

theorem grid_rayLoop (h : OnRay plan x y e a b) (steps : ℕ) (c : ℤ × ℤ)
    (hc : inGrid c.1 c.2) :
    (rayLoop plan steps grid x y e).grid (cellIndex c.1 c.2) =
      rayValue (rayLoop plan steps grid x y e).visited plan.x1 plan.y1 c
        (grid (cellIndex c.1 c.2)) := by
  induction steps generalizing grid x y e a b with
  | zero => exact (if_pos List.not_mem_nil).symm
  | succ steps ih =>
    by_cases hin : inGrid x y
    · have hother : c ≠ (x, y) → cellIndex c.1 c.2 ≠ cellIndex x y := fun hne heq =>
        hne (cellIndex_inj hc hin heq)
      by_cases hend : x = plan.x1 ∧ y = plan.y1
      · rw [rayLoop_succ_reached steps hin hend, rayValue]
        by_cases heq : c = (x, y)
        · rw [if_neg (not_not.2 (heq ▸ List.mem_singleton_self _)),
            if_pos (by rw [heq, hend.1, hend.2]), heq]
          exact Function.update_self _ _ _
        · rw [if_pos fun hmem => heq (List.mem_singleton.1 hmem)]
          exact Function.update_of_ne (hother heq) _ _
      · rw [rayLoop_succ_step steps hin hend]
        have hrest := @ih (nextX plan x e) (nextY plan y e) (nextE plan e) _ _ (lower grid x y)
          (h.step hend)
        dsimp only
        rw [hrest, rayValue, rayValue]
        by_cases heq : c = (x, y)
        · rw [if_pos (heq ▸ not_mem_rayLoop h hend steps),
            if_neg (not_not.2 (heq ▸ List.mem_cons_self)), if_neg, heq]
          · exact Function.update_self _ _ _
          · rw [heq, Prod.mk.injEq]
            exact hend
        · have hsame : lower grid x y (cellIndex c.1 c.2) = grid (cellIndex c.1 c.2) :=
            Function.update_of_ne (hother heq) _ _
          have hmem : c ∉ (x, y) :: (rayLoop plan steps (lower grid x y) (nextX plan x e)
              (nextY plan y e) (nextE plan e)).visited ↔ c ∉ (rayLoop plan steps
              (lower grid x y) (nextX plan x e) (nextY plan y e) (nextE plan e)).visited := by
            rw [List.mem_cons, or_iff_right heq]
          rw [hsame, if_congr hmem rfl rfl]
    · rw [rayLoop_succ_left steps hin]
      exact (if_pos List.not_mem_nil).symm

def InRange (grid : Grid) : Prop := ∀ k, -20 ≤ grid k ∧ grid k ≤ 20

theorem InRange.update (h : InRange grid) {k value : ℤ} (hvalue : -20 ≤ value ∧ value ≤ 20) :
    InRange (Function.update grid k value) := by
  intro k'
  by_cases hk : k' = k
  · rw [hk, Function.update_self]
    exact hvalue
  · rw [Function.update_of_ne hk]
    exact h k'

theorem inRange_rayLoop (h : InRange grid) (steps : ℕ) :
    InRange (rayLoop plan steps grid x y e).grid := by
  induction steps generalizing grid x y e with
  | zero => exact h
  | succ steps ih =>
    by_cases hin : inGrid x y
    · have hold := h (cellIndex x y)
      by_cases hend : x = plan.x1 ∧ y = plan.y1
      · rw [rayLoop_succ_reached steps hin hend]
        exact h.update ⟨by omega, by omega⟩
      · rw [rayLoop_succ_step steps hin hend]
        exact ih (h.update ⟨by omega, by omega⟩)
    · rw [rayLoop_succ_left steps hin]
      exact h

end Steps

/-! ## A whole ray -/

/-- What one ray does. -/
structure RayKept (grid : Grid) (x0 y0 x1 y1 : ℤ) : Prop where
  ending : (ray grid x0 y0 x1 y1).ending = if inGrid x1 y1 then .reached else .left
  nodup : (ray grid x0 y0 x1 y1).visited.Nodup
  inside : ∀ c ∈ (ray grid x0 y0 x1 y1).visited, inGrid c.1 c.2
  last : inGrid x1 y1 → (x1, y1) ∈ (ray grid x0 y0 x1 y1).visited
  values : ∀ c : ℤ × ℤ, inGrid c.1 c.2 →
    (ray grid x0 y0 x1 y1).grid (cellIndex c.1 c.2) =
      rayValue (ray grid x0 y0 x1 y1).visited x1 y1 c (grid (cellIndex c.1 c.2))

theorem onRay_start (x0 y0 x1 y1 : ℤ) :
    OnRay ⟨x1, y1, |x1 - x0|, -|y1 - y0|, if x0 < x1 then 1 else -1, if y0 < y1 then 1 else -1⟩
      x0 y0 (|x1 - x0| + -|y1 - y0|) |x1 - x0| |y1 - y0| where
  signs := by
    dsimp only
    constructor <;> split <;> decide
  column := by
    dsimp only
    split
    · rename_i hlt
      rw [abs_of_pos (sub_pos.2 hlt)]
      ring
    · rename_i hge
      rw [abs_of_nonpos (sub_nonpos.2 (not_lt.1 hge))]
      ring
  row := by
    dsimp only
    split
    · rename_i hlt
      rw [abs_of_pos (sub_pos.2 hlt)]
      ring
    · rename_i hge
      rw [abs_of_nonpos (sub_nonpos.2 (not_lt.1 hge))]
      ring
  line := by
    dsimp only
    rw [neg_neg, ← sub_eq_add_neg]
    exact .start (abs_nonneg _) (abs_nonneg _)

theorem room_le (plan : RayPlan) {x y : ℤ} (h : inGrid x y) : room plan x y ≤ MAP_SIZE := by
  obtain ⟨hx, hy, hx', hy'⟩ := h
  unfold room
  split <;> split <;> omega

theorem ray_kept (grid : Grid) {x0 y0 : ℤ} (x1 y1 : ℤ) (hstart : inGrid x0 y0) :
    RayKept grid x0 y0 x1 y1 := by
  have hray := onRay_start x0 y0 x1 y1
  have hending : (ray grid x0 y0 x1 y1).ending = if inGrid x1 y1 then .reached else .left := by
    refine ending_rayLoop (fun _ => hstart) hray (room_pos hstart).le ?_
    refine lt_of_le_of_lt (room_le _ hstart) ?_
    decide
  refine ⟨hending, nodup_rayLoop hray _, inGrid_of_mem_rayLoop _, fun hend => ?_,
    grid_rayLoop hray _⟩
  rw [if_pos hend] at hending
  exact end_mem_rayLoop _ hending

theorem inRange_ray {grid : Grid} (h : InRange grid) (x0 y0 x1 y1 : ℤ) :
    InRange (ray grid x0 y0 x1 y1).grid := inRange_rayLoop h _

end Questix.LabPage.UsbSlam

/-
Questix.LabPage.PlanClearance — what a segment that is let through keeps clear of.

`Clear` says it of a point: its distance from every wall and from every point of
every obstacle. The clearance of a segment is computed from its ends and from the
corners of the obstacles alone; `crosses_of_near` is why that is enough: a
segment that comes near a side, with its ends and the corners away, crosses it.
-/
import Questix.LabPage.PlanRoute

namespace Questix.LabPage.PlanRoute

open Questix.Lib

/-! ## Distances -/

theorem distance_comm (a b : Point) : distance a b = distance b a := by
  unfold distance hypot
  congr 1
  ring

theorem distance_nonneg (a b : Point) : 0 ≤ distance a b := hypot_nonneg _ _

theorem hypot_le_hypot {x y x' y' : ℝ} (hx : |x| ≤ |x'|) (hy : |y| ≤ |y'|) :
    hypot x y ≤ hypot x' y' :=
  Real.sqrt_le_sqrt (add_le_add (sq_le_sq.2 hx) (sq_le_sq.2 hy))

theorem distance_triangle (a b c : Point) : distance a c ≤ distance a b + distance b c := by
  unfold distance
  rw [hypot_eq_norm, hypot_eq_norm, hypot_eq_norm]
  refine le_trans (le_of_eq ?_) (norm_add_le _ _)
  congr 1
  apply Complex.ext
  · show a.x - c.x = (a.x - b.x) + (b.x - c.x)
    ring
  · show a.y - c.y = (a.y - b.y) + (b.y - c.y)
    ring

/-- The point of a segment that divides it by `t`. -/
def along (a b : Point) (t : ℝ) : Point := ⟨a.x + t * (b.x - a.x), a.y + t * (b.y - a.y)⟩

theorem along_zero (a b : Point) : along a b 0 = a := by
  unfold along
  rw [zero_mul, zero_mul, add_zero, add_zero]

theorem along_one (a b : Point) : along a b 1 = b := by
  unfold along
  rw [one_mul, one_mul, add_sub_cancel, add_sub_cancel]

theorem along_swap (a b : Point) (t : ℝ) : along b a (1 - t) = along a b t := by
  unfold along
  congr 1 <;> ring

/-- `pointSegment` is the least distance from the points of the segment. -/
theorem pointSegment_le (p a b : Point) {t : ℝ} (ht : t ∈ Set.Icc (0 : ℝ) 1) :
    pointSegment p a b ≤ distance p (along a b t) := by
  obtain ⟨ht0, ht1⟩ := ht
  unfold pointSegment along distance hypot
  dsimp only
  generalize hw : (p.x - a.x) * (b.x - a.x) + (p.y - a.y) * (b.y - a.y) = w
  generalize hs : (b.x - a.x) * (b.x - a.x) + (b.y - a.y) * (b.y - a.y) = squares
  refine Real.sqrt_le_sqrt ?_
  have hsplit : ∀ k : ℝ, (p.x - (a.x + k * (b.x - a.x))) ^ 2 + (p.y - (a.y + k * (b.y - a.y))) ^ 2 =
      (p.x - a.x) ^ 2 + (p.y - a.y) ^ 2 - 2 * k * w + k ^ 2 * squares := by
    intro k
    rw [← hw, ← hs]
    ring
  rw [hsplit, hsplit]
  have hnonneg : 0 ≤ squares := by
    rw [← hs]
    exact add_nonneg (mul_self_nonneg _) (mul_self_nonneg _)
  rcases hnonneg.eq_or_lt with hzero | hpos
  · -- a segment that is a point
    have hx : b.x - a.x = 0 := by
      nlinarith [mul_self_nonneg (b.x - a.x), mul_self_nonneg (b.y - a.y)]
    have hy : b.y - a.y = 0 := by
      nlinarith [mul_self_nonneg (b.x - a.x), mul_self_nonneg (b.y - a.y)]
    have hw0 : w = 0 := by rw [← hw, hx, hy]; ring
    rw [hw0, ← hzero]
    linarith
  · rw [if_neg hpos.ne']
    rcases le_total w 0 with hneg | hw0
    · have hk : max 0 (min 1 (w / squares)) = 0 :=
        max_eq_left ((min_le_right _ _).trans (div_nonpos_of_nonpos_of_nonneg hneg hnonneg))
      rw [hk]
      nlinarith [mul_nonneg ht0 (neg_nonneg.2 hneg), mul_nonneg (mul_self_nonneg t) hnonneg]
    · rcases le_total squares w with hfar | hnear
      · have hk : max 0 (min 1 (w / squares)) = 1 := by
          rw [min_eq_left ((one_le_div hpos).2 hfar), max_eq_right zero_le_one]
        rw [hk]
        nlinarith [mul_nonneg (sub_nonneg.2 ht1) (sub_nonneg.2 hfar),
          mul_nonneg (sub_nonneg.2 ht1) (mul_nonneg (sub_nonneg.2 ht1) hnonneg)]
      · have hk : max 0 (min 1 (w / squares)) = w / squares := by
          rw [min_eq_right ((div_le_one hpos).2 hnear), max_eq_right (div_nonneg hw0 hnonneg)]
        rw [hk]
        have hmul : w = w / squares * squares := (div_mul_cancel₀ w hpos.ne').symm
        generalize w / squares = k at hmul
        rw [hmul]
        nlinarith [mul_nonneg (mul_self_nonneg (t - k)) hnonneg]

/-! ## Clear points -/

def Rectangle.Contains (r : Rectangle) (q : Point) : Prop :=
  q.x ∈ Set.Icc r.x (r.x + r.w) ∧ q.y ∈ Set.Icc r.y (r.y + r.h)

/-- A point that is farther than `required` from the walls and from the obstacles. -/
structure Clear (map : PlanMap) (required : ℝ) (p : Point) : Prop where
  walls : required < p.x ∧ required < p.y ∧ required < map.width - p.x ∧ required < map.height - p.y
  obstacles : ∀ r ∈ map.obstacles, ∀ q, r.Contains q → required < distance p q

theorem lt_wallClearance {c : ℝ} {p : Point} {map : PlanMap} : c < wallClearance p map ↔
    c < p.x ∧ c < p.y ∧ c < map.width - p.x ∧ c < map.height - p.y := by
  unfold wallClearance
  rw [lt_min_iff, lt_min_iff, lt_min_iff, and_assoc]

theorem lt_foldl_min {c : ℝ} (l : List ℝ) (least : ℝ) :
    c < l.foldl min least ↔ c < least ∧ ∀ x ∈ l, c < x := by
  induction l generalizing least with
  | nil => exact ⟨fun h => ⟨h, nofun⟩, And.left⟩
  | cons y l ih =>
    rw [List.foldl_cons, ih, lt_min_iff, List.forall_mem_cons, and_assoc]

theorem foldl_min_mem (l : List ℝ) (least : ℝ) :
    l.foldl min least = least ∨ l.foldl min least ∈ l := by
  induction l generalizing least with
  | nil => exact .inl rfl
  | cons y l ih =>
    rw [List.foldl_cons]
    rcases ih (min least y) with heq | hmem
    · rw [heq]
      exact (min_choice least y).imp_right fun hy => by rw [hy]; exact List.mem_cons_self
    · exact .inr (List.mem_cons_of_mem _ hmem)

theorem rectDistance_le {p q : Point} {r : Rectangle} (hq : r.Contains q) :
    rectDistance p r ≤ distance p q := by
  obtain ⟨⟨hx1, hx2⟩, hy1, hy2⟩ := hq
  have hside : ∀ {least length c z : ℝ}, least ≤ z → z ≤ least + length →
      |max (max (least - c) 0) (c - least - length)| ≤ |c - z| := by
    intro least length c z hlow hhigh
    rw [abs_of_nonneg (le_max_of_le_left (le_max_right _ _))]
    refine max_le (max_le ?_ (abs_nonneg _)) ?_
    · exact le_trans (by linarith) (neg_le_abs _)
    · exact le_trans (by linarith) (le_abs_self _)
  exact hypot_le_hypot (hside hx1 hx2) (hside hy1 hy2)

/-- The point of a rectangle that is nearest to `p`. -/
def Rectangle.nearest (r : Rectangle) (p : Point) : Point :=
  ⟨max r.x (min p.x (r.x + r.w)), max r.y (min p.y (r.y + r.h))⟩

theorem Rectangle.contains_nearest {r : Rectangle} (hw : 0 ≤ r.w) (hh : 0 ≤ r.h) (p : Point) :
    r.Contains (r.nearest p) :=
  ⟨⟨le_max_left _ _, max_le (by linarith) (min_le_right _ _)⟩,
    le_max_left _ _, max_le (by linarith) (min_le_right _ _)⟩

theorem rectDistance_nearest {r : Rectangle} (hw : 0 ≤ r.w) (hh : 0 ≤ r.h) (p : Point) :
    rectDistance p r = distance p (r.nearest p) := by
  have hside : ∀ {least length c : ℝ}, 0 ≤ length →
      |max (max (least - c) 0) (c - least - length)|
        = |c - max least (min c (least + length))| := by
    intro least length c hlength
    rcases le_total c least with hlow | hlow
    · rw [min_eq_left (by linarith), max_eq_left hlow, max_eq_left (by linarith : 0 ≤ least - c),
        max_eq_left (by linarith : c - least - length ≤ least - c), abs_sub_comm]
    · rcases le_total c (least + length) with hhigh | hhigh
      · rw [min_eq_left hhigh, max_eq_right hlow, max_eq_right (by linarith : least - c ≤ 0),
          max_eq_left (by linarith : c - least - length ≤ 0), sub_self]
      · rw [min_eq_right hhigh, max_eq_right (by linarith : least ≤ least + length),
          max_eq_right (by linarith : least - c ≤ 0),
          max_eq_right (by linarith : 0 ≤ c - least - length), sub_sub]
  unfold rectDistance distance
  exact le_antisymm (hypot_le_hypot (hside hw).le (hside hh).le)
    (hypot_le_hypot (hside hw).ge (hside hh).ge)

theorem Clear.lt_planningClearance {map : PlanMap} {required : ℝ} {p : Point}
    (h : Clear map required p) (hsizes : ∀ r ∈ map.obstacles, 0 ≤ r.w ∧ 0 ≤ r.h) :
    required < planningClearance p map := by
  refine (lt_foldl_min _ _).2 ⟨lt_wallClearance.2 h.walls, fun d hd => ?_⟩
  obtain ⟨r, hr, rfl⟩ := List.mem_map.1 hd
  obtain ⟨hw, hh⟩ := hsizes r hr
  rw [rectDistance_nearest hw hh]
  exact h.obstacles r hr _ (Rectangle.contains_nearest hw hh p)

theorem clear_of_not_tight {grid : Grid} {p : Point} (h : ¬ grid.Tight p) :
    Clear grid.map (grid.required + SLACK) p := by
  obtain ⟨hwalls, hobstacles⟩ := (lt_foldl_min _ _).1 (not_le.1 h)
  refine ⟨lt_wallClearance.1 hwalls, fun r hr q hq => ?_⟩
  exact (hobstacles _ (List.mem_map_of_mem hr)).trans_le (rectDistance_le hq)

/-! ## A segment beside a side of a rectangle -/

def coord (c d t : ℝ) : ℝ := c + t * d

theorem coord_mem {c d s t z : ℝ} (hz : z ∈ Set.uIcc (coord c d s) (coord c d t)) :
    ∃ k ∈ Set.uIcc s t, coord c d k = z := by
  have hcont : Continuous (coord c d) :=
    continuous_const.add (continuous_id.mul continuous_const)
  obtain ⟨k, hk, rfl⟩ := intermediate_value_uIcc hcont.continuousOn hz
  exact ⟨k, hk, rfl⟩

theorem coord_uIcc {c d s t k : ℝ} (hk : k ∈ Set.uIcc s t) :
    coord c d k ∈ Set.uIcc (coord c d s) (coord c d t) := by
  unfold coord
  rcases Set.mem_uIcc.1 hk with ⟨h1, h2⟩ | ⟨h1, h2⟩ <;> rcases le_total 0 d with hd | hd
  · exact Set.mem_uIcc.2 (.inl ⟨by nlinarith, by nlinarith⟩)
  · exact Set.mem_uIcc.2 (.inr ⟨by nlinarith, by nlinarith⟩)
  · exact Set.mem_uIcc.2 (.inr ⟨by nlinarith, by nlinarith⟩)
  · exact Set.mem_uIcc.2 (.inl ⟨by nlinarith, by nlinarith⟩)

/-- Beside a side, where one coordinate is `side` and the other between `low` and `high`: the
ends of the segment are away from the side, and the whole segment from the corners. -/
structure Beside (R u du v dv side low high : ℝ) : Prop where
  ends : ∀ e, e = 0 ∨ e = 1 → |coord u du e - side| ≤ R → ¬ coord v dv e ∈ Set.Icc low high
  corners : ∀ t ∈ Set.Icc (0 : ℝ) 1, |coord u du t - side| ≤ R →
    coord v dv t ≠ low ∧ coord v dv t ≠ high

section Beside

variable {R u du v dv side low high : ℝ}

theorem uIcc_unit {s t k : ℝ} (hs : s ∈ Set.Icc (0 : ℝ) 1) (ht : t ∈ Set.Icc (0 : ℝ) 1)
    (hk : k ∈ Set.uIcc s t) : k ∈ Set.Icc (0 : ℝ) 1 :=
  Set.uIcc_subset_Icc hs ht hk

theorem Beside.stays (h : Beside R u du v dv side low high) {s t : ℝ}
    (hs : s ∈ Set.Icc (0 : ℝ) 1) (ht : t ∈ Set.Icc (0 : ℝ) 1)
    (hnear : ∀ k ∈ Set.uIcc s t, |coord u du k - side| ≤ R)
    (hin : coord v dv t ∈ Set.Icc low high) : coord v dv s ∈ Set.Icc low high := by
  by_contra hout
  -- it would pass a corner
  have hpass : low ∈ Set.uIcc (coord v dv s) (coord v dv t) ∨
      high ∈ Set.uIcc (coord v dv s) (coord v dv t) := by
    rcases lt_or_ge (coord v dv s) low with hlow | hlow
    · exact .inl (Set.mem_uIcc.2 (.inl ⟨hlow.le, hin.1⟩))
    · have hhigh : high < coord v dv s := not_le.1 fun hle => hout ⟨hlow, hle⟩
      exact .inr (Set.mem_uIcc.2 (.inr ⟨hin.2, hhigh.le⟩))
  rcases hpass with hz | hz
  · obtain ⟨k, hk, hcoord⟩ := coord_mem hz
    exact (h.corners k (uIcc_unit hs ht hk) (hnear k hk)).1 hcoord
  · obtain ⟨k, hk, hcoord⟩ := coord_mem hz
    exact (h.corners k (uIcc_unit hs ht hk) (hnear k hk)).2 hcoord

/-- A segment that comes near a side, on either hand, crosses it. -/
theorem Beside.crosses (h : Beside R u du v dv side low high) {t : ℝ}
    (ht : t ∈ Set.Icc (0 : ℝ) 1) (hlow : side ≤ coord u du t) (hnear : coord u du t ≤ side + R)
    (hin : coord v dv t ∈ Set.Icc low high) :
    ∃ s ∈ Set.Icc (0 : ℝ) 1, coord u du s = side ∧ coord v dv s ∈ Set.Icc low high := by
  -- towards the end where the coordinate goes down
  obtain ⟨e, he, hend⟩ : ∃ e : ℝ, (e = 0 ∨ e = 1) ∧ coord u du e ≤ coord u du t := by
    unfold coord
    rcases le_total 0 du with hdu | hdu
    · exact ⟨0, .inl rfl, by nlinarith [ht.1]⟩
    · exact ⟨1, .inr rfl, by nlinarith [ht.2]⟩
  have he' : e ∈ Set.Icc (0 : ℝ) 1 := by
    rcases he with rfl | rfl
    · exact ⟨le_refl _, zero_le_one⟩
    · exact ⟨zero_le_one, le_refl _⟩
  have hkeeps : ∀ s, side ≤ coord u du s → coord u du s ≤ coord u du t →
      ∀ k ∈ Set.uIcc s t, |coord u du k - side| ≤ R := by
    intro s hs hst k hk
    rcases Set.mem_uIcc.1 (coord_uIcc (c := u) (d := du) hk) with ⟨h1, h2⟩ | ⟨h1, h2⟩
    · exact abs_le.2 ⟨by linarith, by linarith⟩
    · exact abs_le.2 ⟨by linarith, by linarith⟩
  rcases le_total side (coord u du e) with hbefore | hbehind
  · -- it does not get there, but then it ends beside the side
    have hstay := h.stays he' ht (hkeeps e hbefore hend) hin
    exact absurd hstay (h.ends e he (abs_le.2 ⟨by linarith, by linarith⟩))
  · obtain ⟨s, hs, hside⟩ := coord_mem (Set.mem_uIcc.2 (.inl ⟨hbehind, hlow⟩))
    have hs' := uIcc_unit he' ht hs
    exact ⟨s, hs', hside, h.stays hs' ht (hkeeps s hside.ge (hside.le.trans hlow)) hin⟩

theorem Beside.not_near (h : Beside R u du v dv side low high) {t : ℝ}
    (ht : t ∈ Set.Icc (0 : ℝ) 1) (hnear : ∀ k ∈ Set.uIcc 0 t, |coord u du k - side| ≤ R)
    (hin : coord v dv t ∈ Set.Icc low high) : False := by
  have h0 : (0 : ℝ) ∈ Set.Icc (0 : ℝ) 1 := ⟨le_refl _, zero_le_one⟩
  exact h.ends 0 (.inl rfl) (hnear 0 Set.left_mem_uIcc) (h.stays h0 ht hnear hin)

end Beside

/-! ## A segment and a rectangle -/

theorem abs_le_hypot_left (x y : ℝ) : |x| ≤ hypot x y := by
  rw [hypot_eq_norm]
  exact Complex.abs_re_le_norm ⟨x, y⟩

theorem abs_le_hypot_right (x y : ℝ) : |y| ≤ hypot x y := by
  rw [hypot_eq_norm]
  exact Complex.abs_im_le_norm ⟨x, y⟩

theorem distance_of_y_eq {p q : Point} (h : p.y = q.y) : distance p q = |p.x - q.x| := by
  unfold distance hypot
  rw [h, sub_self, zero_pow two_ne_zero, add_zero, Real.sqrt_sq_eq_abs]

def Point.swap (p : Point) : Point := ⟨p.y, p.x⟩

def Rectangle.swap (r : Rectangle) : Rectangle := ⟨r.y, r.x, r.h, r.w⟩

theorem distance_swap (p q : Point) : distance p.swap q.swap = distance p q := by
  unfold distance hypot Point.swap
  rw [add_comm]

/-- The ends of a segment are farther than `R` from a rectangle, and the whole segment from
its corners. -/
structure Apart (R : ℝ) (a b : Point) (r : Rectangle) : Prop where
  ends : ∀ q, r.Contains q → R < distance a q ∧ R < distance b q
  corners : ∀ corner ∈ corners r, ∀ t ∈ Set.Icc (0 : ℝ) 1, R < distance corner (along a b t)

section Apart

variable {R : ℝ} {a b : Point} {r : Rectangle}

theorem Apart.swap (h : Apart R a b r) : Apart R a.swap b.swap r.swap where
  ends := by
    intro q hq
    have hlt := h.ends q.swap ⟨hq.2, hq.1⟩
    rw [← distance_swap a, ← distance_swap b] at hlt
    exact hlt
  corners := by
    intro corner hcorner t ht
    have hold : corner.swap ∈ PlanRoute.corners r := by
      simp only [PlanRoute.corners, Rectangle.swap, Point.swap, List.mem_cons, List.not_mem_nil,
        or_false] at hcorner ⊢
      rcases hcorner with rfl | rfl | rfl | rfl
      · exact .inl rfl
      · exact .inr (.inr (.inl rfl))
      · exact .inr (.inl rfl)
      · exact .inr (.inr (.inr rfl))
    have hlt := h.corners corner.swap hold t ht
    rw [← distance_swap] at hlt
    exact hlt

/-- The segment at the left or the right side of the rectangle. -/
theorem Apart.beside (h : Apart R a b r) {side : ℝ} (hside : side = r.x ∨ side = r.x + r.w)
    (hw : 0 ≤ r.w) : Beside R a.x (b.x - a.x) a.y (b.y - a.y) side r.y (r.y + r.h) where
  ends := by
    have hmem : side ∈ Set.Icc r.x (r.x + r.w) := by
      rcases hside with rfl | rfl
      · exact ⟨le_refl _, by linarith⟩
      · exact ⟨by linarith, le_refl _⟩
    rintro e (rfl | rfl) hnear hin
    · have hlt := (h.ends ⟨side, coord a.y (b.y - a.y) 0⟩ ⟨hmem, hin⟩).1
      rw [distance_of_y_eq (by unfold coord; ring)] at hlt
      have heq : coord a.x (b.x - a.x) 0 = a.x := by unfold coord; ring
      rw [heq] at hnear
      exact absurd hnear (not_le.2 hlt)
    · have hlt := (h.ends ⟨side, coord a.y (b.y - a.y) 1⟩ ⟨hmem, hin⟩).2
      rw [distance_of_y_eq (by unfold coord; ring)] at hlt
      have heq : coord a.x (b.x - a.x) 1 = b.x := by unfold coord; ring
      rw [heq] at hnear
      exact absurd hnear (not_le.2 hlt)
  corners := by
    intro t ht hnear
    have hfar : ∀ y, ⟨side, y⟩ ∈ PlanRoute.corners r → coord a.y (b.y - a.y) t ≠ y := by
      rintro y hcorner rfl
      have hlt := h.corners _ hcorner t ht
      have heq : distance ⟨side, coord a.y (b.y - a.y) t⟩ (along a b t) =
          |side - (along a b t).x| := distance_of_y_eq rfl
      rw [heq, abs_sub_comm] at hlt
      exact absurd hnear (not_le.2 hlt)
    rcases hside with rfl | rfl
    · exact ⟨hfar _ (.head _), hfar _ (.tail _ (.tail _ (.head _)))⟩
    · exact ⟨hfar _ (.tail _ (.head _)), hfar _ (.tail _ (.tail _ (.tail _ (.head _))))⟩

theorem nearest_end {c low length : ℝ} (hlength : 0 ≤ length)
    (hout : ¬ c ∈ Set.Icc low (low + length)) :
    max low (min c (low + length)) = low ∧ c < low ∨
      max low (min c (low + length)) = low + length ∧ low + length < c := by
  rcases lt_or_ge c low with hlow | hlow
  · exact .inl ⟨max_eq_left ((min_le_left _ _).trans hlow.le), hlow⟩
  · have hhigh : low + length < c := not_le.1 fun hle => hout ⟨hlow, hle⟩
    rw [min_eq_right hhigh.le, max_eq_right (by linarith)]
    exact .inr ⟨rfl, hhigh⟩

theorem Beside.neg {u du v dv side low high : ℝ} (h : Beside R u du v dv side low high) :
    Beside R (-u) (-du) v dv (-side) low high := by
  have hcoord : ∀ t, |coord (-u) (-du) t - -side| = |coord u du t - side| := by
    intro t
    rw [← abs_neg]
    congr 1
    unfold coord
    ring
  refine ⟨fun e he hnear => h.ends e he ?_, fun t ht hnear => h.corners t ht ?_⟩
  · rwa [← hcoord]
  · rwa [← hcoord]

theorem Apart.crosses (h : Apart R a b r) (hw : 0 ≤ r.w) {t : ℝ} (ht : t ∈ Set.Icc (0 : ℝ) 1)
    (hout : ¬ (along a b t).x ∈ Set.Icc r.x (r.x + r.w))
    (hin : (along a b t).y ∈ Set.Icc r.y (r.y + r.h))
    (hnear : |(along a b t).x - (r.nearest (along a b t)).x| ≤ R) :
    ∃ s ∈ Set.Icc (0 : ℝ) 1, r.Contains (along a b s) := by
  unfold Rectangle.nearest at hnear
  dsimp only at hnear
  rcases nearest_end hw hout with ⟨heq, hlt⟩ | ⟨heq, hlt⟩
  · rw [heq] at hnear
    have hneg : coord (-a.x) (-(b.x - a.x)) t = -(along a b t).x := by
      unfold coord along
      ring
    obtain ⟨s, hs, hside, hy⟩ := (h.beside (.inl rfl) hw).neg.crosses ht
      (by rw [hneg]; linarith) (by rw [hneg]; linarith [(abs_le.1 hnear).1]) hin
    refine ⟨s, hs, ?_, hy⟩
    have hx : (along a b s).x = r.x := by
      unfold coord at hside
      unfold along
      linarith
    rw [hx]
    exact ⟨le_refl _, by linarith⟩
  · rw [heq] at hnear
    have hright : coord a.x (b.x - a.x) t ≤ r.x + r.w + R := by
      show (along a b t).x ≤ r.x + r.w + R
      linarith [(abs_le.1 hnear).2]
    obtain ⟨s, hs, hside, hy⟩ := (h.beside (.inr rfl) hw).crosses ht hlt.le hright hin
    refine ⟨s, hs, ?_, hy⟩
    have hx : (along a b s).x = r.x + r.w := hside
    rw [hx]
    exact ⟨by linarith, le_refl _⟩

/-- A segment that comes near a rectangle meets it. -/
theorem Apart.meets (h : Apart R a b r) {t : ℝ} (ht : t ∈ Set.Icc (0 : ℝ) 1) {q : Point}
    (hq : r.Contains q) (hnear : distance (along a b t) q ≤ R) :
    ∃ s ∈ Set.Icc (0 : ℝ) 1, r.Contains (along a b s) := by
  have hw : 0 ≤ r.w := by linarith [hq.1.1, hq.1.2]
  have hh : 0 ≤ r.h := by linarith [hq.2.1, hq.2.2]
  have hclose : distance (along a b t) (r.nearest (along a b t)) ≤ R := by
    rw [← rectDistance_nearest hw hh]
    exact (rectDistance_le hq).trans hnear
  have hx := (abs_le_hypot_left _ _).trans hclose
  have hy := (abs_le_hypot_right _ _).trans hclose
  by_cases hinx : (along a b t).x ∈ Set.Icc r.x (r.x + r.w)
  · by_cases hiny : (along a b t).y ∈ Set.Icc r.y (r.y + r.h)
    · exact ⟨t, ht, hinx, hiny⟩
    · obtain ⟨s, hs, hcontains⟩ := h.swap.crosses hh ht hiny hinx hy
      exact ⟨s, hs, hcontains.2, hcontains.1⟩
  · by_cases hiny : (along a b t).y ∈ Set.Icc r.y (r.y + r.h)
    · exact h.crosses hw ht hinx hiny hx
    · -- the nearest point is a corner
      have hcorner : r.nearest (along a b t) ∈ PlanRoute.corners r := by
        unfold Rectangle.nearest
        rcases nearest_end hw hinx with ⟨hex, -⟩ | ⟨hex, -⟩ <;>
          rcases nearest_end hh hiny with ⟨hey, -⟩ | ⟨hey, -⟩ <;> rw [hex, hey]
        · exact .head _
        · exact .tail _ (.tail _ (.head _))
        · exact .tail _ (.head _)
        · exact .tail _ (.tail _ (.tail _ (.head _)))
      have hlt := h.corners _ hcorner t ht
      rw [distance_comm] at hlt
      exact absurd hclose (not_le.2 hlt)

/-! ## Crossing is noticed -/

/-- A range of the segment keeps the points that are between the two bounds. -/
theorem slab_spec {p d least most t : ℝ} {part : ℝ × ℝ} (ht : t ∈ Set.Icc part.1 part.2)
    (hin : coord p d t ∈ Set.Icc least most)
    (hthick : |d| < 1 / 10 ^ 12 → p ∈ Set.Icc least most) :
    ∃ part', slab p d least most part = some part' ∧ t ∈ Set.Icc part'.1 part'.2 := by
  unfold slab
  split
  · rename_i hsmall
    obtain ⟨hlow, hhigh⟩ := hthick hsmall
    rw [if_neg (not_or.2 ⟨not_lt.2 hlow, not_lt.2 hhigh⟩)]
    exact ⟨part, rfl, ht⟩
  · rename_i hlarge
    have hd : d ≠ 0 := by
      rintro rfl
      rw [abs_zero] at hlarge
      exact hlarge (by positivity)
    unfold coord at hin
    have hbetween : min ((least - p) / d) ((most - p) / d) ≤ t ∧
        t ≤ max ((least - p) / d) ((most - p) / d) := by
      rcases lt_or_gt_of_ne hd with hneg | hpos
      · have h1 : (most - p) / d ≤ t := (div_le_iff_of_neg hneg).2 (by linarith [hin.2])
        have h2 : t ≤ (least - p) / d := (le_div_iff_of_neg hneg).2 (by linarith [hin.1])
        exact ⟨(min_le_right _ _).trans h1, h2.trans (le_max_left _ _)⟩
      · have h1 : (least - p) / d ≤ t := (div_le_iff₀ hpos).2 (by linarith [hin.1])
        have h2 : t ≤ (most - p) / d := (le_div_iff₀ hpos).2 (by linarith [hin.2])
        exact ⟨(min_le_left _ _).trans h1, h2.trans (le_max_right _ _)⟩
    have hlow := max_le ht.1 hbetween.1
    have hhigh := le_min ht.2 hbetween.2
    dsimp only
    rw [if_neg (not_lt.2 (hlow.trans hhigh))]
    exact ⟨_, rfl, hlow, hhigh⟩

theorem Apart.thick (h : Apart R a b r) (hR : 1 / 10 ^ 12 ≤ R) {t : ℝ}
    (ht : t ∈ Set.Icc (0 : ℝ) 1) (hcontains : r.Contains (along a b t))
    (hthin : |b.x - a.x| < 1 / 10 ^ 12) : a.x ∈ Set.Icc r.x (r.x + r.w) := by
  by_contra hout
  obtain ⟨⟨hx1, hx2⟩, hy⟩ := hcontains
  have hw : 0 ≤ r.w := by linarith
  -- the side is between the beginning and the point that is in the rectangle
  have hnear : ∀ side, side ∈ Set.uIcc (coord a.x (b.x - a.x) 0) (coord a.x (b.x - a.x) t) →
      ∀ k ∈ Set.uIcc 0 t, |coord a.x (b.x - a.x) k - side| ≤ R := by
    intro side hside k hk
    have hle := Set.abs_sub_le_of_uIcc_subset_uIcc (Set.uIcc_subset_uIcc hside (coord_uIcc hk))
    refine le_trans hle (le_trans ?_ hR)
    have heq : coord a.x (b.x - a.x) t - coord a.x (b.x - a.x) 0 = t * (b.x - a.x) := by
      unfold coord
      ring
    rw [heq, abs_mul, abs_of_nonneg ht.1]
    exact (mul_le_of_le_one_left (abs_nonneg _) ht.2).trans hthin.le
  have hzero : coord a.x (b.x - a.x) 0 = a.x := by
    unfold coord
    ring
  rcases nearest_end hw hout with ⟨-, hlt⟩ | ⟨-, hlt⟩
  · refine (h.beside (.inl rfl) hw).not_near ht (hnear r.x (Set.mem_uIcc.2 (.inl ⟨?_, hx1⟩))) hy
    rw [hzero]
    exact hlt.le
  · refine (h.beside (.inr rfl) hw).not_near ht
      (hnear (r.x + r.w) (Set.mem_uIcc.2 (.inr ⟨hx2, ?_⟩))) hy
    rw [hzero]
    exact hlt.le

theorem Apart.intersects (h : Apart R a b r) (hR : 1 / 10 ^ 12 ≤ R) {t : ℝ}
    (ht : t ∈ Set.Icc (0 : ℝ) 1) (hcontains : r.Contains (along a b t)) :
    intersects a b r = true := by
  have ht' : t ∈ Set.Icc ((0, 1) : ℝ × ℝ).1 ((0, 1) : ℝ × ℝ).2 := ht
  obtain ⟨part, hpart, htpart⟩ := slab_spec ht' hcontains.1 (h.thick hR ht hcontains)
  obtain ⟨part', hpart', -⟩ := slab_spec htpart hcontains.2
    (h.swap.thick hR ht ⟨hcontains.2, hcontains.1⟩)
  unfold PlanRoute.intersects
  rw [hpart, Option.bind_some, hpart']
  rfl

theorem Apart.lt_distance (h : Apart R a b r) (hR : 1 / 10 ^ 12 ≤ R)
    (hmiss : PlanRoute.intersects a b r = false) {t : ℝ} (ht : t ∈ Set.Icc (0 : ℝ) 1) {q : Point}
    (hq : r.Contains q) : R < distance (along a b t) q := by
  refine not_le.1 fun hnear => ?_
  obtain ⟨s, hs, hcontains⟩ := h.meets ht hq hnear
  rw [h.intersects hR hs hcontains] at hmiss
  cases hmiss

end Apart

/-! ## Segments that are let through -/

theorem lt_obstacleClearance {a b : Point} {c : ℝ} (hc : 0 ≤ c) {l : List Rectangle} {least : ℝ}
    (h : c < obstacleClearance a b l least) : c < least ∧ ∀ r ∈ l, intersects a b r = false ∧
      c < rectDistance a r ∧ c < rectDistance b r ∧
      ∀ corner ∈ corners r, c < pointSegment corner a b := by
  induction l generalizing least with
  | nil => exact ⟨h, nofun⟩
  | cons r l ih =>
    unfold obstacleClearance at h
    split at h
    · exact absurd h (not_lt.2 hc)
    · rename_i hmiss
      obtain ⟨hleast, hrest⟩ := ih h
      obtain ⟨hends, hcorners⟩ := (lt_foldl_min _ _).1 hleast
      obtain ⟨hold, hb⟩ := lt_min_iff.1 hends
      obtain ⟨hold, ha⟩ := lt_min_iff.1 hold
      refine ⟨hold, List.forall_mem_cons.2 ⟨⟨Bool.not_eq_true _ ▸ hmiss, ha, hb, ?_⟩, hrest⟩⟩
      exact fun corner hcorner => hcorners _ (List.mem_map_of_mem hcorner)

theorem apart_of_lt {a b : Point} {c : ℝ} {r : Rectangle} (ha : c < rectDistance a r)
    (hb : c < rectDistance b r) (hcorners : ∀ corner ∈ corners r, c < pointSegment corner a b) :
    Apart c a b r where
  ends := fun _ hq => ⟨ha.trans_le (rectDistance_le hq), hb.trans_le (rectDistance_le hq)⟩
  corners := fun corner hcorner _ ht =>
    (hcorners corner hcorner).trans_le (pointSegment_le corner a b ht)

/-- Every point of a segment between two clear points that is let through is clear, with what
the merging of points may take. -/
theorem Grid.Free.clear {grid : Grid} {a b : Point} (h : grid.Free a b) (ha : ¬ grid.Tight a)
    (hb : ¬ grid.Tight b) {t : ℝ} (ht : t ∈ Set.Icc (0 : ℝ) 1) :
    Clear grid.map (grid.required + MERGE) (along a b t) := by
  have hmerge : MERGE ≤ SLACK := by
    unfold MERGE SLACK
    norm_num
  obtain ⟨ha1, ha2, ha3, ha4⟩ := (clear_of_not_tight ha).walls
  obtain ⟨hb1, hb2, hb3, hb4⟩ := (clear_of_not_tight hb).walls
  have hmix : ∀ {x y c : ℝ}, c < x → c < y → c < x + t * (y - x) := by
    intro x y c hx hy
    nlinarith [mul_nonneg ht.1 (sub_nonneg.2 hy.le),
      mul_nonneg (sub_nonneg.2 ht.2) (sub_nonneg.2 hx.le)]
  refine ⟨⟨?_, ?_, ?_, ?_⟩, fun r hr q hq => ?_⟩
  · exact lt_of_le_of_lt (by linarith) (hmix ha1 hb1)
  · exact lt_of_le_of_lt (by linarith) (hmix ha2 hb2)
  · have := hmix ha3 hb3
    unfold along
    linarith
  · have := hmix ha4 hb4
    unfold along
    linarith
  · rcases lt_or_ge (grid.required + SLACK) (1 / 10 ^ 12) with hfew | hmany
    · -- less than nothing is required
      refine lt_of_lt_of_le ?_ (distance_nonneg _ _)
      unfold SLACK at hfew
      unfold MERGE
      linarith
    · have hc : 0 ≤ grid.required + SLACK := le_trans (by norm_num) hmany
      obtain ⟨-, hobstacles⟩ := lt_obstacleClearance hc (not_le.1 h)
      obtain ⟨hmiss, hra, hrb, hcorners⟩ := hobstacles r hr
      have hapart := apart_of_lt hra hrb hcorners
      exact lt_of_le_of_lt (add_le_add_right hmerge _) (hapart.lt_distance hmany hmiss ht hq)

/-! ## The least clearance of a segment -/

theorem wallClearance_along {a b : Point} {map : PlanMap} {t : ℝ} (ht : t ∈ Set.Icc (0 : ℝ) 1) :
    min (wallClearance a map) (wallClearance b map) ≤ wallClearance (along a b t) map := by
  refine le_of_forall_lt fun c hc => ?_
  obtain ⟨ha, hb⟩ := lt_min_iff.1 hc
  obtain ⟨ha1, ha2, ha3, ha4⟩ := lt_wallClearance.1 ha
  obtain ⟨hb1, hb2, hb3, hb4⟩ := lt_wallClearance.1 hb
  have hmix : ∀ {x y : ℝ}, c < x → c < y → c < x + t * (y - x) := by
    intro x y hx hy
    nlinarith [mul_nonneg ht.1 (sub_nonneg.2 hy.le),
      mul_nonneg (sub_nonneg.2 ht.2) (sub_nonneg.2 hx.le)]
  refine lt_wallClearance.2 ⟨hmix ha1 hb1, hmix ha2 hb2, ?_, ?_⟩
  · have := hmix ha3 hb3
    unfold along
    linarith
  · have := hmix ha4 hb4
    unfold along
    linarith

/-- What is left of a range is in it, and there one coordinate is between the bounds, if
only as it is at the beginning where the segment is all but at right angles to it. -/
theorem slab_sound {p d least most : ℝ} {part part' : ℝ × ℝ}
    (h : slab p d least most part = some part') (hsize : least ≤ most) (hpart : part.1 ≤ part.2) :
    part'.1 ≤ part'.2 ∧ part.1 ≤ part'.1 ∧ part'.2 ≤ part.2 ∧
      (|d| < 1 / 10 ^ 12 ∧ p ∈ Set.Icc least most ∨
        ∀ t ∈ Set.Icc part'.1 part'.2, coord p d t ∈ Set.Icc least most) := by
  unfold slab at h
  split at h
  · rename_i hsmall
    split at h
    · cases h
    · rename_i hin
      cases h
      rw [not_or, not_lt, not_lt] at hin
      exact ⟨hpart, le_refl _, le_refl _, .inl ⟨hsmall, hin⟩⟩
  · rename_i hlarge
    dsimp only at h
    split at h
    · cases h
    · rename_i hsome
      cases h
      have hd : d ≠ 0 := by
        rintro rfl
        rw [abs_zero] at hlarge
        exact hlarge (by positivity)
      refine ⟨not_lt.1 hsome, le_max_left _ _, min_le_left _ _, .inr fun t ht => ?_⟩
      have hlow := (le_max_right _ _).trans ht.1
      have hhigh := ht.2.trans (min_le_right _ _)
      unfold coord
      rcases lt_or_gt_of_ne hd with hneg | hpos
      · have hle : (most - p) / d ≤ (least - p) / d :=
          div_le_div_of_nonpos_of_le hneg.le (by linarith)
        rw [min_eq_right hle] at hlow
        rw [max_eq_left hle] at hhigh
        have h1 := (div_le_iff_of_neg hneg).1 hlow
        have h2 := (le_div_iff_of_neg hneg).1 hhigh
        exact ⟨by linarith, by linarith⟩
      · have hle : (least - p) / d ≤ (most - p) / d :=
          div_le_div_of_nonneg_right (by linarith) hpos.le
        rw [min_eq_left hle] at hlow
        rw [max_eq_right hle] at hhigh
        have h1 := (div_le_iff₀ hpos).1 hlow
        have h2 := (le_div_iff₀ hpos).1 hhigh
        exact ⟨by linarith, by linarith⟩

/-- A segment that is taken to meet a rectangle comes as near to it as makes no difference. -/
theorem near_of_intersects {a b : Point} {r : Rectangle} (hw : 0 ≤ r.w) (hh : 0 ≤ r.h)
    (h : intersects a b r = true) :
    ∃ t ∈ Set.Icc (0 : ℝ) 1, rectDistance (along a b t) r ≤ 1 / 10 ^ 12 := by
  obtain ⟨part', hsome⟩ := Option.isSome_iff_exists.1 h
  obtain ⟨part, hx, hy⟩ := Option.bind_eq_some_iff.1 hsome
  obtain ⟨hpart, h0, h1, hinx⟩ := slab_sound hx (by linarith) zero_le_one
  obtain ⟨hpart', h0', h1', hiny⟩ := slab_sound hy (by linarith) hpart
  have hlow : part'.1 ∈ Set.Icc part'.1 part'.2 := ⟨le_refl _, hpart'⟩
  have hin : part'.1 ∈ Set.Icc part.1 part.2 := ⟨h0', hpart'.trans h1'⟩
  have hunit : part'.1 ∈ Set.Icc (0 : ℝ) 1 := ⟨h0.trans h0', (hpart'.trans h1').trans h1⟩
  have hshort : ∀ d : ℝ, |d| < 1 / 10 ^ 12 → |part'.1 * d| ≤ 1 / 10 ^ 12 := by
    intro d hd
    rw [abs_mul, abs_of_nonneg hunit.1]
    exact (mul_le_of_le_one_left (abs_nonneg _) hunit.2).trans hd.le
  rcases hinx with ⟨hthinx, hax⟩ | hinx
  · rcases hiny with ⟨hthiny, hay⟩ | hiny
    · -- the segment is hardly more than a point
      refine ⟨0, ⟨le_refl _, zero_le_one⟩, (rectDistance_le (q := a) ⟨hax, hay⟩).trans ?_⟩
      rw [along_zero, distance_of_y_eq rfl, sub_self, abs_zero]
      positivity
    · refine ⟨part'.1, hunit,
        (rectDistance_le (q := ⟨a.x, (along a b part'.1).y⟩) ⟨hax, hiny _ hlow⟩).trans ?_⟩
      rw [distance_of_y_eq (by rfl)]
      refine le_trans (le_of_eq ?_) (hshort _ hthinx)
      congr 1
      unfold along
      ring
  · rcases hiny with ⟨hthiny, hay⟩ | hiny
    · refine ⟨part'.1, hunit,
        (rectDistance_le (q := ⟨(along a b part'.1).x, a.y⟩) ⟨hinx _ hin, hay⟩).trans ?_⟩
      rw [← distance_swap, distance_of_y_eq (by rfl)]
      refine le_trans (le_of_eq ?_) (hshort _ hthiny)
      congr 1
      unfold along Point.swap
      ring
    · refine ⟨part'.1, hunit,
        (rectDistance_le (q := along a b part'.1) ⟨hinx _ hin, hiny _ hlow⟩).trans ?_⟩
      rw [distance_of_y_eq rfl, sub_self, abs_zero]
      positivity

/-- The least so far is that of a wall, an end or a corner, or a rectangle is met. -/
theorem obstacleClearance_cases (a b : Point) (l : List Rectangle) (least : ℝ) :
    (∃ r ∈ l, intersects a b r = true ∧ obstacleClearance a b l least = 0) ∨
      obstacleClearance a b l least = least ∨
      ∃ r ∈ l, obstacleClearance a b l least = rectDistance a r ∨
        obstacleClearance a b l least = rectDistance b r ∨
        ∃ corner ∈ corners r, obstacleClearance a b l least = pointSegment corner a b := by
  induction l generalizing least with
  | nil => exact .inr (.inl rfl)
  | cons r l ih =>
    unfold obstacleClearance
    split
    · rename_i hmeets
      exact .inl ⟨r, List.mem_cons_self, hmeets, rfl⟩
    · generalize hleast : ((corners r).map fun corner => pointSegment corner a b).foldl min
        (min (min least (rectDistance a r)) (rectDistance b r)) = least'
      rcases ih least' with ⟨r', hr', hmeets⟩ | heq | ⟨r', hr', hat⟩
      · exact .inl ⟨r', List.mem_cons_of_mem _ hr', hmeets⟩
      · rw [heq, ← hleast]
        have hmem := foldl_min_mem ((corners r).map fun corner => pointSegment corner a b)
          (min (min least (rectDistance a r)) (rectDistance b r))
        rcases hmem with hmem | hmem
        · rw [hmem]
          rcases min_choice (min least (rectDistance a r)) (rectDistance b r) with hmin | hmin
          · rw [hmin]
            rcases min_choice least (rectDistance a r) with hmin | hmin
            · exact .inr (.inl hmin)
            · exact .inr (.inr ⟨r, List.mem_cons_self, .inl hmin⟩)
          · exact .inr (.inr ⟨r, List.mem_cons_self, .inr (.inl hmin)⟩)
        · obtain ⟨corner, hcorner, heq⟩ := List.mem_map.1 hmem
          exact .inr (.inr ⟨r, List.mem_cons_self, .inr (.inr ⟨corner, hcorner, heq.symm⟩)⟩)
      · exact .inr (.inr ⟨r', List.mem_cons_of_mem _ hr', hat⟩)

section least

variable {map : PlanMap} {a b : Point}

theorem continuous_rectDistance (a b : Point) (r : Rectangle) :
    Continuous fun t => rectDistance (along a b t) r := by
  unfold rectDistance hypot along
  fun_prop

theorem continuous_foldl_min (a b : Point) (l : List Rectangle) {least : ℝ → ℝ}
    (hleast : Continuous least) :
    Continuous fun t => (l.map (rectDistance (along a b t))).foldl min (least t) := by
  induction l generalizing least with
  | nil => exact hleast
  | cons r l ih => exact ih (hleast.min (continuous_rectDistance a b r))

theorem continuous_planningClearance (map : PlanMap) (a b : Point) :
    Continuous fun t => planningClearance (along a b t) map := by
  refine continuous_foldl_min a b map.obstacles ?_
  unfold wallClearance along
  fun_prop

/-- A point that is inside the outer walls. -/
def Inside (map : PlanMap) (p : Point) : Prop :=
  p.x ∈ Set.Icc 0 map.width ∧ p.y ∈ Set.Icc 0 map.height

theorem Inside.wallClearance (h : Inside map a) : 0 ≤ wallClearance a map := by
  obtain ⟨⟨h1, h2⟩, h3, h4⟩ := h
  exact le_min (le_min h1 h3) (le_min (sub_nonneg.2 h2) (sub_nonneg.2 h4))

theorem planningClearance_le_wall (p : Point) (map : PlanMap) :
    planningClearance p map ≤ wallClearance p map := by
  refine le_of_forall_lt fun c hc => ?_
  exact ((lt_foldl_min _ _).1 hc).1

theorem planningClearance_le_rect {r : Rectangle} (hr : r ∈ map.obstacles) (p : Point) :
    planningClearance p map ≤ rectDistance p r := by
  refine le_of_forall_lt fun c hc => ?_
  exact ((lt_foldl_min _ _).1 hc).2 _ (List.mem_map_of_mem hr)

/-- The computed clearance is no more than that of each point, but for what a segment at all
but right angles may be away. -/
theorem segmentClearance_le (hsizes : ∀ r ∈ map.obstacles, 0 ≤ r.w ∧ 0 ≤ r.h) (ha : Inside map a)
    (hb : Inside map b) {t : ℝ} (ht : t ∈ Set.Icc (0 : ℝ) 1) :
    segmentClearance a b map ≤ planningClearance (along a b t) map + 1 / 10 ^ 12 := by
  have hwalls : min (wallClearance a map) (wallClearance b map)
      ≤ wallClearance (along a b t) map := wallClearance_along ht
  rcases le_or_gt (segmentClearance a b map) (1 / 10 ^ 12) with hsmall | hlarge
  · have hnonneg : 0 ≤ planningClearance (along a b t) map := by
      refine le_of_forall_lt fun c hc => (lt_foldl_min _ _).2 ⟨?_, fun d hd => ?_⟩
      · exact hc.trans_le ((le_min ha.wallClearance hb.wallClearance).trans hwalls)
      · obtain ⟨r, -, rfl⟩ := List.mem_map.1 hd
        exact hc.trans_le (hypot_nonneg _ _)
    linarith
  · have hexact : segmentClearance a b map ≤ planningClearance (along a b t) map := by
      refine le_of_forall_lt fun c hc => ?_
      have hR := le_max_right c (1 / 10 ^ 12)
      obtain ⟨hends, hobstacles⟩ :=
        lt_obstacleClearance (le_trans (by positivity) hR) (max_lt hc hlarge)
      refine lt_of_le_of_lt (le_max_left c (1 / 10 ^ 12))
        ((lt_foldl_min _ _).2 ⟨?_, fun d hd => ?_⟩)
      · exact hends.trans_le hwalls
      · obtain ⟨r, hr, rfl⟩ := List.mem_map.1 hd
        obtain ⟨hw, hh⟩ := hsizes r hr
        obtain ⟨hmiss, hra, hrb, hcorners⟩ := hobstacles r hr
        rw [rectDistance_nearest hw hh]
        exact (apart_of_lt hra hrb hcorners).lt_distance hR hmiss ht
          (Rectangle.contains_nearest hw hh _)
    have : (0 : ℝ) ≤ 1 / 10 ^ 12 := by positivity
    linarith

theorem corner_contains {r : Rectangle} (hw : 0 ≤ r.w) (hh : 0 ≤ r.h) {corner : Point}
    (h : corner ∈ corners r) : r.Contains corner := by
  simp only [corners, List.mem_cons, List.not_mem_nil, or_false] at h
  rcases h with rfl | rfl | rfl | rfl
  · exact ⟨⟨le_refl _, by linarith⟩, le_refl _, by linarith⟩
  · exact ⟨⟨by linarith, le_refl _⟩, le_refl _, by linarith⟩
  · exact ⟨⟨le_refl _, by linarith⟩, by linarith, le_refl _⟩
  · exact ⟨⟨by linarith, le_refl _⟩, by linarith, le_refl _⟩

theorem exists_pointSegment (p a b : Point) :
    ∃ t ∈ Set.Icc (0 : ℝ) 1, pointSegment p a b = distance p (along a b t) :=
  ⟨_, ⟨le_max_left _ _, max_le zero_le_one (min_le_left _ _)⟩, rfl⟩

/-- Some point of the segment is hardly farther than the computed clearance. -/
theorem exists_planningClearance_le (hsizes : ∀ r ∈ map.obstacles, 0 ≤ r.w ∧ 0 ≤ r.h)
    (a b : Point) : ∃ t ∈ Set.Icc (0 : ℝ) 1,
      planningClearance (along a b t) map ≤ segmentClearance a b map + 1 / 10 ^ 12 := by
  have htiny : (0 : ℝ) ≤ 1 / 10 ^ 12 := by positivity
  have h0 : (0 : ℝ) ∈ Set.Icc (0 : ℝ) 1 := ⟨le_refl _, zero_le_one⟩
  have h1 : (1 : ℝ) ∈ Set.Icc (0 : ℝ) 1 := ⟨zero_le_one, le_refl _⟩
  -- it is enough that the clearance of a point is that of the segment
  have hexact : ∀ t ∈ Set.Icc (0 : ℝ) 1,
      planningClearance (along a b t) map ≤ segmentClearance a b map → ∃ t ∈ Set.Icc (0 : ℝ) 1,
        planningClearance (along a b t) map ≤ segmentClearance a b map + 1 / 10 ^ 12 :=
    fun t ht hle => ⟨t, ht, by linarith⟩
  rcases obstacleClearance_cases a b map.obstacles
    (min (wallClearance a map) (wallClearance b map)) with ⟨r, hr, hmeets, heq⟩ | heq | ⟨r, hr, hat⟩
  · obtain ⟨hw, hh⟩ := hsizes r hr
    obtain ⟨t, ht, hnear⟩ := near_of_intersects hw hh hmeets
    have hrect := planningClearance_le_rect hr (along a b t)
    refine ⟨t, ht, ?_⟩
    unfold segmentClearance
    rw [heq]
    linarith
  · rcases min_choice (wallClearance a map) (wallClearance b map) with hmin | hmin
    · refine hexact 0 h0 ?_
      rw [along_zero, segmentClearance, heq, hmin]
      exact planningClearance_le_wall a map
    · refine hexact 1 h1 ?_
      rw [along_one, segmentClearance, heq, hmin]
      exact planningClearance_le_wall b map
  · rcases hat with heq | heq | ⟨corner, hcorner, heq⟩
    · refine hexact 0 h0 ?_
      rw [along_zero, segmentClearance, heq]
      exact planningClearance_le_rect hr a
    · refine hexact 1 h1 ?_
      rw [along_one, segmentClearance, heq]
      exact planningClearance_le_rect hr b
    · obtain ⟨hw, hh⟩ := hsizes r hr
      obtain ⟨t, ht, hdistance⟩ := exists_pointSegment corner a b
      refine hexact t ht ?_
      rw [segmentClearance, heq, hdistance, distance_comm]
      exact (planningClearance_le_rect hr _).trans (rectDistance_le (corner_contains hw hh hcorner))

/-- The clearance that is computed of a segment is the least of its points, but for what a
segment at all but right angles to an axis may be away. -/
theorem segmentClearance_near_least (map : PlanMap) (a b : Point)
    (hsizes : ∀ r ∈ map.obstacles, 0 ≤ r.w ∧ 0 ≤ r.h) (ha : Inside map a) (hb : Inside map b) :
    ∃ least, IsLeast ((fun t => planningClearance (along a b t) map) '' Set.Icc 0 1) least ∧
      |segmentClearance a b map - least| ≤ 1 / 10 ^ 12 := by
  obtain ⟨t, ht, hmin⟩ := isCompact_Icc.exists_isMinOn (Set.nonempty_Icc.2 zero_le_one)
    (continuous_planningClearance map a b).continuousOn
  refine ⟨planningClearance (along a b t) map, ⟨⟨t, ht, rfl⟩, ?_⟩, abs_le.2 ⟨?_, ?_⟩⟩
  · rintro _ ⟨k, hk, rfl⟩
    exact hmin hk
  · obtain ⟨k, hk, hle⟩ := exists_planningClearance_le hsizes a b
    have hkt : planningClearance (along a b t) map ≤ planningClearance (along a b k) map := hmin hk
    linarith
  · have := segmentClearance_le hsizes ha hb ht
    linarith

/-- A block in the middle of a room, and the way past it. -/
noncomputable def blockMap : PlanMap where
  width := 6
  height := 4
  start := ⟨3 / 5, 2⟩
  goal := ⟨27 / 5, 2⟩
  obstacles := [⟨12 / 5, 6 / 5, 6 / 5, 8 / 5⟩]

theorem segmentClearance_near_least_block :
    ∃ least, IsLeast ((fun t => planningClearance (along ⟨1, 1⟩ ⟨5, 1⟩ t) blockMap) '' Set.Icc 0 1)
        least ∧ |segmentClearance ⟨1, 1⟩ ⟨5, 1⟩ blockMap - least| ≤ 1 / 10 ^ 12 := by
  refine segmentClearance_near_least blockMap ⟨1, 1⟩ ⟨5, 1⟩ ?_ ?_ ?_
  · intro r hr
    rw [List.mem_singleton.1 hr]
    norm_num
  · unfold Inside blockMap
    norm_num
  · unfold Inside blockMap
    norm_num

end least

end Questix.LabPage.PlanRoute

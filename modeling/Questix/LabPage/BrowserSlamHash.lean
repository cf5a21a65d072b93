/-
Questix.LabPage.BrowserSlamHash — the point hash of the key frames.

Of each voxel the hash has the point that comes first when the frames are gone
through from the newest on (`filter_rebuild`). A point within the radius is at
most two cells away (`near_cell`), so going through the cells around is going
through all of them, in the order of the cells.
-/
import Mathlib.Data.Finset.Sort
import Mathlib.Data.Prod.Lex
import Questix.LabPage.BrowserSlam

namespace Questix.LabPage.UsbSlam

open Questix.Lib

/-! ## What the hash holds -/

def Hashed (hash : Hash) (p : Feature) : Prop := ∃ k, p ∈ hash k

/-- The hash holds the points `past` in the order they came, the first of each voxel. -/
structure Holds (past : List Feature) (used : Finset (ℤ × ℤ)) (hash : Hash) : Prop where
  used : ∀ v, v ∈ used ↔ (past.find? fun p => voxelOf p.toPoint = v).isSome
  cells : ∀ k, ∀ p ∈ hash k, hashCellOf p.x p.y = k
  first : ∀ v k, (hash k).filter (fun p => voxelOf p.toPoint = v) =
    (past.find? fun p => voxelOf p.toPoint = v).toList.filter fun p => hashCellOf p.x p.y = k

section Rebuild

variable {past : List Feature} {used : Finset (ℤ × ℤ)} {hash : Hash}

theorem holds_nil : Holds [] ∅ fun _ => [] where
  used := fun v => by simp
  cells := fun k p hp => absurd hp List.not_mem_nil
  first := fun v k => rfl

theorem find?_snoc_of_used (h : Holds past used hash) {p : Feature}
    (hused : voxelOf p.toPoint ∈ used) (v : ℤ × ℤ) :
    (past ++ [p]).find? (fun p => voxelOf p.toPoint = v) =
      past.find? fun p => voxelOf p.toPoint = v := by
  rw [List.find?_append]
  by_cases hv : voxelOf p.toPoint = v
  · subst hv
    exact Option.or_of_isSome ((h.used _).1 hused)
  · rw [List.find?_cons_of_neg (by simpa using hv), List.find?_nil, Option.or_none]

theorem find?_snoc_of_new (h : Holds past used hash) {p : Feature}
    (hnew : voxelOf p.toPoint ∉ used) (v : ℤ × ℤ) :
    (past ++ [p]).find? (fun p => voxelOf p.toPoint = v) =
      if voxelOf p.toPoint = v then some p else past.find? fun p => voxelOf p.toPoint = v := by
  rw [List.find?_append]
  split
  · rename_i hv
    subst hv
    have hnone := mt (h.used _).2 hnew
    rw [Option.not_isSome_iff_eq_none] at hnone
    rw [hnone, Option.none_or]
    exact List.find?_cons_of_pos (by simp)
  · rename_i hv
    rw [List.find?_cons_of_neg (by simpa using hv), List.find?_nil, Option.or_none]

theorem Holds.addPoint (h : Holds past used hash) (p : Feature) :
    Holds (past ++ [p]) (UsbSlam.addPoint (used, hash) p).1
      (UsbSlam.addPoint (used, hash) p).2 := by
  unfold UsbSlam.addPoint
  dsimp only
  split
  · rename_i hused
    refine ⟨fun v => ?_, h.cells, fun v k => ?_⟩
    · rw [find?_snoc_of_used h hused]
      exact h.used v
    · rw [find?_snoc_of_used h hused]
      exact h.first v k
  · rename_i hnew
    refine ⟨fun v => ?_, fun k q hq => ?_, fun v k => ?_⟩
    · rw [find?_snoc_of_new h hnew, Finset.mem_insert]
      split
      · rename_i hv
        exact ⟨fun _ => rfl, fun _ => .inl hv.symm⟩
      · rename_i hv
        rw [← h.used v]
        exact or_iff_right fun heq => hv heq.symm
    · dsimp only at hq
      by_cases hk : k = hashCellOf p.x p.y
      · subst hk
        rw [Function.update_self] at hq
        rcases List.mem_append.1 hq with hq | hq
        · exact h.cells _ q hq
        · rw [List.mem_singleton.1 hq]
      · rw [Function.update_of_ne hk] at hq
        exact h.cells k q hq
    · dsimp only
      rw [find?_snoc_of_new h hnew]
      by_cases hv : voxelOf p.toPoint = v
      · have hnone : (past.find? fun p => voxelOf p.toPoint = v) = none := by
          have := mt (h.used _).2 hnew
          rwa [Option.not_isSome_iff_eq_none, hv] at this
        have hold := h.first v k
        rw [hnone] at hold
        rw [if_pos hv]
        by_cases hk : k = hashCellOf p.x p.y
        · subst hk
          rw [Function.update_self, List.filter_append, hold]
          simp [hv]
        · rw [Function.update_of_ne hk, hold]
          simp [Ne.symm hk]
      · rw [if_neg hv, ← h.first v k]
        by_cases hk : k = hashCellOf p.x p.y
        · subst hk
          rw [Function.update_self, List.filter_append]
          simp [hv]
        · rw [Function.update_of_ne hk]

theorem holds_foldl (points : List Feature) (h : Holds past used hash) :
    Holds (past ++ points) (points.foldl UsbSlam.addPoint (used, hash)).1
      (points.foldl UsbSlam.addPoint (used, hash)).2 := by
  induction points generalizing past used hash with
  | nil =>
    rw [List.append_nil]
    exact h
  | cons p points ih =>
    have hrest := ih (h.addPoint p)
    rwa [List.append_assoc] at hrest

theorem holds_rebuild (frames : List (List Feature)) :
    ∃ used, Holds frames.reverse.flatten used (rebuild frames) :=
  ⟨_, holds_foldl frames.reverse.flatten holds_nil⟩

end Rebuild

/-- What the hash of the frames holds. -/
structure HashKept (frames : List (List Feature)) (hash : Hash) : Prop where
  /-- Of each voxel that a frame touches there is one point, of the newest such frame. -/
  one : ∀ v, (∃ frame ∈ frames, ∃ p ∈ frame, voxelOf p.toPoint = v) →
    ∃ p k, (∀ k', (hash k').filter (fun q => voxelOf q.toPoint = v) = if k' = k then [p] else []) ∧
      ∃ older newest newer, frames = older ++ newest :: newer ∧ p ∈ newest ∧
        voxelOf p.toPoint = v ∧ ∀ frame ∈ newer, ∀ q ∈ frame, voxelOf q.toPoint ≠ v
  /-- And nothing else. -/
  only : ∀ p, Hashed hash p → ∃ frame ∈ frames, p ∈ frame
  cells : ∀ k, ∀ p ∈ hash k, hashCellOf p.x p.y = k

theorem hashKept_rebuild (frames : List (List Feature)) : HashKept frames (rebuild frames) := by
  obtain ⟨used, h⟩ := holds_rebuild frames
  refine ⟨?_, ?_, h.cells⟩
  · rintro v ⟨frame, hframe, q, hq, hv⟩
    have hsome : (frames.reverse.flatten.find? fun p => voxelOf p.toPoint = v).isSome := by
      rw [List.find?_isSome]
      exact ⟨q, List.mem_flatten.2 ⟨frame, List.mem_reverse.2 hframe, hq⟩, decide_eq_true hv⟩
    obtain ⟨p, hp⟩ := Option.isSome_iff_exists.1 hsome
    refine ⟨p, hashCellOf p.x p.y, fun k' => ?_, ?_⟩
    · rw [h.first v k', hp, Option.toList_some]
      by_cases hk : k' = hashCellOf p.x p.y
      · simp [hk]
      · simp [hk, Ne.symm hk]
    · obtain ⟨hvoxel, newer, ys, zs, older, hsplit, hnewer, -⟩ :=
        List.find?_flatten_eq_some_iff.1 hp
      refine ⟨older.reverse, ys ++ p :: zs, newer.reverse, ?_, by simp,
        of_decide_eq_true hvoxel, fun frame hframe q hq => ?_⟩
      · have := congrArg List.reverse hsplit
        simpa using this
      · have := hnewer frame (List.mem_reverse.1 hframe) q hq
        simpa using this
  · rintro p ⟨k, hp⟩
    have hmem : p ∈ (rebuild frames k).filter fun q => voxelOf q.toPoint = voxelOf p.toPoint :=
      List.mem_filter.2 ⟨hp, decide_eq_true rfl⟩
    rw [h.first, List.mem_filter, Option.mem_toList] at hmem
    obtain ⟨frame, hframe, hpframe⟩ := List.mem_flatten.1 (List.mem_of_find?_eq_some hmem.1)
    exact ⟨frame, List.mem_reverse.1 hframe, hpframe⟩

/-! ## The nearest point -/

/-- The search for the nearest of a list of points. -/
noncomputable def linearSearch (points : List Feature) (x y : ℝ) : Option Feature :=
  (points.foldl (closer x y) (none, MATCH_RADIUS_METRES ^ 2)).1

section Search

variable {x y : ℝ} {best : Option Feature × ℝ} {points : List Feature} {hash : Hash}

/-- What the search has found after some points. -/
structure Found (x y bound : ℝ) (points : List Feature) (best : Option Feature × ℝ) : Prop where
  within : best.2 ≤ bound
  least : ∀ p ∈ points, best.2 ≤ distanceSq x y p
  found : ∀ q, best.1 = some q → q ∈ points ∧ best.2 = distanceSq x y q ∧ best.2 < bound
  none : best.1 = none → best.2 = bound

theorem Found.closer {bound : ℝ} (h : Found x y bound points best) (q : Feature) :
    Found x y bound (points ++ [q]) (UsbSlam.closer x y best q) := by
  unfold UsbSlam.closer
  split
  · rename_i hlt
    refine ⟨hlt.le.trans h.within, fun p hp => ?_, fun q' hq' => ?_, fun hnone => nomatch hnone⟩
    · rcases List.mem_append.1 hp with hp | hp
      · exact hlt.le.trans (h.least p hp)
      · rw [List.mem_singleton.1 hp]
    · cases hq'
      exact ⟨List.mem_append_right _ (List.mem_singleton_self q), rfl, hlt.trans_le h.within⟩
  · rename_i hge
    refine ⟨h.within, fun p hp => ?_, fun q' hq' => ?_, h.none⟩
    · rcases List.mem_append.1 hp with hp | hp
      · exact h.least p hp
      · rw [List.mem_singleton.1 hp]
        exact not_lt.1 hge
    · obtain ⟨hmem, hrest⟩ := h.found q' hq'
      exact ⟨List.mem_append_left _ hmem, hrest⟩

theorem found_foldl {bound : ℝ} (rest : List Feature) (h : Found x y bound points best) :
    Found x y bound (points ++ rest) (rest.foldl (UsbSlam.closer x y) best) := by
  induction rest generalizing points best with
  | nil =>
    rw [List.append_nil]
    exact h
  | cons q rest ih =>
    have hrest := ih (h.closer q)
    rwa [List.append_assoc] at hrest

theorem linearSearch_spec (points : List Feature) (x y : ℝ) :
    (∀ q, linearSearch points x y = some q → q ∈ points ∧
      distanceSq x y q < MATCH_RADIUS_METRES ^ 2 ∧
      ∀ p ∈ points, distanceSq x y q ≤ distanceSq x y p) ∧
    (linearSearch points x y = none →
      ∀ p ∈ points, MATCH_RADIUS_METRES ^ 2 ≤ distanceSq x y p) := by
  have h : Found x y (MATCH_RADIUS_METRES ^ 2) ([] ++ points)
      (points.foldl (closer x y) (none, MATCH_RADIUS_METRES ^ 2)) :=
    found_foldl points ⟨le_rfl, fun p hp => absurd hp List.not_mem_nil,
      fun q hq => (nomatch hq), fun _ => rfl⟩
  rw [List.nil_append] at h
  refine ⟨fun q hq => ?_, fun hnone p hp => ?_⟩
  · obtain ⟨hmem, hbest, hlt⟩ := h.found q hq
    exact ⟨hmem, hbest ▸ hlt, fun p hp => hbest ▸ h.least p hp⟩
  · exact h.none hnone ▸ h.least p hp

theorem foldl_closer_far (far : ∀ p ∈ points, MATCH_RADIUS_METRES ^ 2 ≤ distanceSq x y p)
    (hbest : best.2 ≤ MATCH_RADIUS_METRES ^ 2) : points.foldl (closer x y) best = best := by
  induction points with
  | nil => rfl
  | cons p points ih =>
    have hp := far p List.mem_cons_self
    rw [List.foldl_cons, closer, if_neg (not_lt.2 (hbest.trans hp))]
    exact ih fun q hq => far q (List.mem_cons_of_mem p hq)

theorem foldl_closer_le (points : List Feature) (hbest : best.2 ≤ MATCH_RADIUS_METRES ^ 2) :
    (points.foldl (closer x y) best).2 ≤ MATCH_RADIUS_METRES ^ 2 := by
  induction points generalizing best with
  | nil => exact hbest
  | cons p points ih =>
    refine ih ?_
    unfold closer
    split
    · rename_i hlt
      exact hlt.le.trans hbest
    · exact hbest

theorem foldl_closer_filter (near : ℤ × ℤ → Bool) (cells : List (ℤ × ℤ))
    (far : ∀ k ∈ cells, near k = false →
      ∀ p ∈ hash k, MATCH_RADIUS_METRES ^ 2 ≤ distanceSq x y p)
    (hbest : best.2 ≤ MATCH_RADIUS_METRES ^ 2) :
    (cells.flatMap hash).foldl (closer x y) best =
      ((cells.filter near).flatMap hash).foldl (closer x y) best := by
  induction cells generalizing best with
  | nil => rfl
  | cons k cells ih =>
    have hrest := fun {best} hbest =>
      @ih best (fun k' hk' => far k' (List.mem_cons_of_mem k hk')) hbest
    rw [List.flatMap_cons, List.foldl_append]
    cases hk : near k with
    | true =>
      rw [List.filter_cons_of_pos hk, List.flatMap_cons, List.foldl_append]
      exact hrest (foldl_closer_le _ hbest)
    | false =>
      rw [List.filter_cons_of_neg (by rw [hk]; decide),
        foldl_closer_far (far k List.mem_cons_self hk) hbest]
      exact hrest hbest

theorem abs_sub_floor_le {u v : ℝ} (h : |u - v| < 3 / 10) :
    |⌊u / HASH_CELL_METRES⌋ - ⌊v / HASH_CELL_METRES⌋| ≤ 2 := by
  unfold HASH_CELL_METRES
  obtain ⟨hlow, hhigh⟩ := abs_lt.1 h
  have hu := Int.floor_le (u / (2 / 10))
  have hu' := Int.lt_floor_add_one (u / (2 / 10))
  have hv := Int.floor_le (v / (2 / 10))
  have hv' := Int.lt_floor_add_one (v / (2 / 10))
  have hone : ((⌊u / (2 / 10)⌋ - ⌊v / (2 / 10)⌋ : ℤ) : ℝ) < 3 := by
    push_cast
    linarith
  have htwo : (-3 : ℝ) < ((⌊u / (2 / 10)⌋ - ⌊v / (2 / 10)⌋ : ℤ) : ℝ) := by
    push_cast
    linarith
  rw [abs_le]
  constructor
  · have : (-3 : ℤ) < ⌊u / (2 / 10)⌋ - ⌊v / (2 / 10)⌋ := by exact_mod_cast htwo
    omega
  · have : ⌊u / (2 / 10)⌋ - ⌊v / (2 / 10)⌋ < (3 : ℤ) := by exact_mod_cast hone
    omega

theorem near_cell {p : Feature} (h : distanceSq x y p < MATCH_RADIUS_METRES ^ 2) :
    |(hashCellOf p.x p.y).1 - (hashCellOf x y).1| ≤ 2 ∧
      |(hashCellOf p.x p.y).2 - (hashCellOf x y).2| ≤ 2 := by
  unfold distanceSq MATCH_RADIUS_METRES at h
  constructor
  · refine abs_sub_floor_le (abs_lt_of_sq_lt_sq ?_ (by norm_num))
    have := sq_nonneg (p.y - y)
    linarith
  · refine abs_sub_floor_le (abs_lt_of_sq_lt_sq ?_ (by norm_num))
    have := sq_nonneg (p.x - x)
    linarith

/-! The cells around, in their order. -/

/-- The order of the cells: by column, and by row within a column. -/
def Before (k k' : ℤ × ℤ) : Prop := k.1 < k'.1 ∨ k.1 = k'.1 ∧ k.2 < k'.2

theorem Before.ne {k k' : ℤ × ℤ} (h : Before k k') : k ≠ k' := by
  rintro rfl
  unfold Before at h
  omega

/-- The cells that `nearest` goes through. -/
def cellsAround (g : ℤ × ℤ) : List (ℤ × ℤ) :=
  offsets.flatMap fun i => offsets.map fun j => (g.1 + i, g.2 + j)

theorem mem_cellsAround {g k : ℤ × ℤ} :
    k ∈ cellsAround g ↔ |k.1 - g.1| ≤ 2 ∧ |k.2 - g.2| ≤ 2 := by
  obtain ⟨k₁, k₂⟩ := k
  simp only [cellsAround, offsets, List.mem_flatMap, List.mem_map, Prod.mk.injEq, abs_le,
    List.mem_cons, List.not_mem_nil, or_false]
  constructor
  · rintro ⟨i, hi, j, hj, rfl, rfl⟩
    omega
  · intro h
    exact ⟨k₁ - g.1, by omega, k₂ - g.2, by omega, by omega, by omega⟩

theorem pairwise_cellsAround (g : ℤ × ℤ) : (cellsAround g).Pairwise Before := by
  have hoffsets : offsets.Pairwise (· < ·) := by decide
  unfold cellsAround
  rw [List.pairwise_flatMap]
  constructor
  · intro i _
    rw [List.pairwise_map]
    exact hoffsets.imp fun hlt => .inr ⟨rfl, (Int.add_lt_add_iff_left g.2).2 hlt⟩
  · refine hoffsets.imp fun hlt k hk k' hk' => ?_
    obtain ⟨_, _, rfl⟩ := List.mem_map.1 hk
    obtain ⟨_, _, rfl⟩ := List.mem_map.1 hk'
    exact .inl ((Int.add_lt_add_iff_left g.1).2 hlt)

theorem nearest_eq_foldl (hash : Hash) (x y : ℝ) : nearest hash x y =
    linearSearch ((cellsAround (hashCellOf x y)).flatMap hash) x y := by
  unfold nearest linearSearch cellsAround
  simp only [List.flatMap_assoc, List.flatMap_map]

theorem eq_of_pairwise_before {l l' : List (ℤ × ℤ)} (h : l.Pairwise Before)
    (h' : l'.Pairwise Before) (hmem : ∀ k, k ∈ l ↔ k ∈ l') : l = l' := by
  have hnodup : ∀ {l : List (ℤ × ℤ)}, l.Pairwise Before → l.Nodup :=
    fun h => h.imp Before.ne
  refine ((List.perm_ext_iff_of_nodup (hnodup h) (hnodup h')).2 hmem).eq_of_pairwise ?_ h h'
  intro k k' _ _ hk hk'
  unfold Before at hk hk'
  omega

theorem exists_pairwise_before (cells : Finset (ℤ × ℤ)) :
    ∃ l : List (ℤ × ℤ), l.Pairwise Before ∧ ∀ k, k ∈ l ↔ k ∈ cells := by
  refine ⟨((cells.map (toLex (α := ℤ × ℤ)).toEmbedding).sort (· ≤ ·)).map ofLex, ?_, fun k => ?_⟩
  · rw [List.pairwise_map]
    refine ((Finset.sortedLT_sort _).pairwise).imp ?_
    intro k k' hlt
    exact (Prod.lex_def.1 hlt)
  · simp

/-- The search of the cells around finds what a search of all points finds. -/
theorem nearest_eq_linearSearch (frames : List (List Feature)) (hkept : HashKept frames hash) :
    ∃ points : List Feature, (∀ p, p ∈ points ↔ Hashed hash p) ∧
      ∀ x y, nearest hash x y = linearSearch points x y := by
  classical
  obtain ⟨cells, hsorted, hcells⟩ := exists_pairwise_before
    ((frames.flatten.map fun p => hashCellOf p.x p.y).toFinset)
  have hfull : ∀ k, hash k ≠ [] → k ∈ cells := by
    intro k hk
    obtain ⟨p, hp⟩ := List.exists_mem_of_ne_nil _ hk
    obtain ⟨frame, hframe, hpframe⟩ := hkept.only p ⟨k, hp⟩
    rw [hcells, List.mem_toFinset, List.mem_map]
    exact ⟨p, List.mem_flatten.2 ⟨frame, hframe, hpframe⟩, hkept.cells k p hp⟩
  refine ⟨cells.flatMap hash, fun p => ?_, fun x y => ?_⟩
  · rw [List.mem_flatMap]
    constructor
    · rintro ⟨k, -, hp⟩
      exact ⟨k, hp⟩
    · rintro ⟨k, hp⟩
      exact ⟨k, hfull k (List.ne_nil_of_mem hp), hp⟩
  · rw [nearest_eq_foldl, linearSearch, linearSearch,
      foldl_closer_filter (fun k => decide (k ∈ cellsAround (hashCellOf x y))) cells ?_ le_rfl,
      foldl_closer_filter (fun k => decide (k ∈ cells)) (cellsAround (hashCellOf x y)) ?_ le_rfl]
    · rw [eq_of_pairwise_before (hsorted.filter _) ((pairwise_cellsAround _).filter _)]
      intro k
      simp only [List.mem_filter, decide_eq_true_eq]
      exact and_comm
    · intro k _ hnot p hp
      by_contra hnear
      exact of_decide_eq_false hnot (hfull k (List.ne_nil_of_mem hp))
    · intro k _ hnot p hp
      by_contra hnear
      refine of_decide_eq_false hnot (mem_cellsAround.2 ?_)
      rw [← hkept.cells k p hp]
      exact near_cell (not_le.1 hnear)

end Search

end Questix.LabPage.UsbSlam

/-
Questix.LabPage.PlanRouteTheorems — a route that is planned is safe.

The points of the raw route are joined by segments that are let through: the two
connectors and the edges of the grid. `shorten` leaves points out where the way
between the others is let through as well, and merges points that are very near,
which moves an end of a segment by no more than `MERGE`.
-/
import Questix.LabPage.PlanSearch

namespace Questix.LabPage.PlanRoute

open Questix.Lib

/-- Every point of the segment keeps the clearance. -/
def Keeps (map : PlanMap) (required : ℝ) (a b : Point) : Prop :=
  ∀ t ∈ Set.Icc (0 : ℝ) 1, Clear map required (along a b t)

section Keeps

variable {map : PlanMap} {c d : ℝ} {a a' b p p' : Point}

theorem Keeps.symm (h : Keeps map c a b) : Keeps map c b a := by
  intro t ht
  rw [← along_swap b a t]
  exact h (1 - t) ⟨by linarith [ht.2], by linarith [ht.1]⟩

theorem abs_sub_le_distance_x (p q : Point) : |p.x - q.x| ≤ distance p q := abs_le_hypot_left _ _

theorem abs_sub_le_distance_y (p q : Point) : |p.y - q.y| ≤ distance p q := abs_le_hypot_right _ _

theorem Clear.moved (h : Clear map (c + d) p) (hd : distance p' p ≤ d) : Clear map c p' := by
  have hx := abs_le.1 ((abs_sub_le_distance_x p' p).trans hd)
  have hy := abs_le.1 ((abs_sub_le_distance_y p' p).trans hd)
  obtain ⟨h1, h2, h3, h4⟩ := h.walls
  refine ⟨⟨by linarith, by linarith, by linarith, by linarith⟩, fun r hr q hq => ?_⟩
  have hlt := h.obstacles r hr q hq
  have hle := distance_triangle p p' q
  rw [distance_comm p p'] at hle
  linarith

theorem Keeps.moved (h : Keeps map (c + d) a b) (hd : distance a' a ≤ d) : Keeps map c a' b := by
  intro t ht
  refine (h t ht).moved (le_trans ?_ hd)
  have hshrink : ∀ u : ℝ, |(1 - t) * u| ≤ |u| := by
    intro u
    rw [abs_mul, abs_of_nonneg (sub_nonneg.2 ht.2)]
    exact mul_le_of_le_one_left (abs_nonneg u) (by linarith [ht.1])
  have hx : (along a' b t).x - (along a b t).x = (1 - t) * (a'.x - a.x) := by
    unfold along
    ring
  have hy : (along a' b t).y - (along a b t).y = (1 - t) * (a'.y - a.y) := by
    unfold along
    ring
  refine hypot_le_hypot ?_ ?_
  · rw [hx]
    exact hshrink _
  · rw [hy]
    exact hshrink _

end Keeps

/-! ## Leaving points out -/

section shorten

variable {grid : Grid} {raw : List Point}

/-- What is known of the raw route: its points are clear, and each is joined to the next. -/
structure Joined (grid : Grid) (raw : List Point) : Prop where
  points : ∀ p ∈ raw, ¬ grid.Tight p
  chain : raw.IsChain (Keeps grid.map (grid.required + MERGE))

theorem Joined.pointAt (h : Joined grid raw) {index : ℕ} (hindex : index < raw.length) :
    ¬ grid.Tight (pointAt raw index) := by
  refine h.points _ ?_
  unfold PlanRoute.pointAt
  rw [List.getD_eq_getElem _ _ hindex]
  exact List.getElem_mem hindex

theorem Joined.next (h : Joined grid raw) {index : ℕ} (hindex : index + 1 < raw.length) :
    Keeps grid.map (grid.required + MERGE) (PlanRoute.pointAt raw index)
      (PlanRoute.pointAt raw (index + 1)) := by
  unfold PlanRoute.pointAt
  rw [List.getD_eq_getElem _ _ hindex, List.getD_eq_getElem _ _ (Nat.lt_of_succ_lt hindex)]
  exact List.isChain_iff_getElem.1 h.chain index hindex

theorem lastSeen_le (grid : Grid) (raw : List Point) (index next : ℕ) :
    lastSeen grid raw index next ≤ next := by
  induction next with
  | zero => exact le_refl _
  | succ next ih =>
    unfold lastSeen
    split
    · exact ih.trans (Nat.le_succ next)
    · exact le_refl _

theorem lastSeen_free (grid : Grid) (raw : List Point) {index next : ℕ} (h : index < next) :
    lastSeen grid raw index next = index + 1 ∨
      grid.Free (pointAt raw index) (pointAt raw (lastSeen grid raw index next)) := by
  induction next with
  | zero => exact absurd h (Nat.not_lt_zero _)
  | succ next ih =>
    unfold lastSeen
    split
    · rename_i hskip
      exact ih (by omega)
    · rename_i hseen
      rw [not_and_or, not_not] at hseen
      rcases hseen with hnext | hfree
      · exact .inl (by omega)
      · exact .inr hfree

theorem Joined.lastSeen (h : Joined grid raw) {index : ℕ} (hindex : index < raw.length - 1) :
    Keeps grid.map (grid.required + MERGE) (PlanRoute.pointAt raw index)
      (PlanRoute.pointAt raw (lastSeen grid raw index (raw.length - 1))) := by
  have hle := lastSeen_le grid raw index (raw.length - 1)
  rcases lastSeen_free grid raw hindex with hnext | hfree
  · rw [hnext]
    exact h.next (by omega)
  · exact fun t ht => hfree.clear (h.pointAt (by omega)) (h.pointAt (by omega)) ht

theorem Joined.shorten (h : Joined grid raw) (index : ℕ) (last : Point)
    (hindex : index < raw.length) (hlast : distance last (PlanRoute.pointAt raw index) ≤ MERGE) :
    (last :: shorten grid raw index last).IsChain (Keeps grid.map grid.required) ∧
      ∃ final, (last :: shorten grid raw index last).getLast? = some final ∧
        distance final (PlanRoute.pointAt raw (raw.length - 1)) ≤ MERGE := by
  induction index, last using shorten.induct grid raw with
  | case1 index last hmore next hfar ih =>
    have hnext : next ≤ raw.length - 1 := lastSeen_le ..
    have hself : distance (PlanRoute.pointAt raw next) (PlanRoute.pointAt raw next) ≤ MERGE := by
      rw [distance_of_y_eq rfl, sub_self, abs_zero]
      unfold MERGE
      norm_num
    obtain ⟨hchain, final, hfinal, hnear⟩ := ih (by omega) hself
    rw [PlanRoute.shorten, dif_pos hmore]
    dsimp only
    rw [if_pos hfar]
    exact ⟨.cons_cons ((h.lastSeen hmore).moved hlast) hchain, final, hfinal, hnear⟩
  | case2 index last hmore next hnear ih =>
    have hnext : next ≤ raw.length - 1 := lastSeen_le ..
    rw [PlanRoute.shorten, dif_pos hmore]
    dsimp only
    rw [if_neg hnear]
    exact ih (by omega) (not_lt.1 hnear)
  | case3 index last hend =>
    have heq : index = raw.length - 1 := by omega
    rw [PlanRoute.shorten, dif_neg hend]
    exact ⟨.singleton last, last, rfl, heq ▸ hlast⟩

end shorten

/-! ## The connectors -/

section connector

variable {grid : Grid} {p : Point}

theorem foldl_nearer (l : List ℕ) (best : Option (ℕ × ℝ))
    (hbest : ∀ found ∈ best, ¬ grid.Blocked found.1 ∧ grid.Free p (grid.point found.1)) :
    (∀ found ∈ l.foldl (grid.nearer p) best,
      ¬ grid.Blocked found.1 ∧ grid.Free p (grid.point found.1)) ∧
    (l.foldl (grid.nearer p) best = none → best = none ∧
      ∀ id ∈ l, ¬ (¬ grid.Blocked id ∧ grid.Free p (grid.point id))) := by
  induction l generalizing best with
  | nil => exact ⟨hbest, fun h => ⟨h, nofun⟩⟩
  | cons id l ih =>
    rw [List.foldl_cons]
    by_cases hnearer : ¬ grid.Blocked id ∧ (∀ found ∈ best, distance p (grid.point id) < found.2) ∧
        grid.Free p (grid.point id)
    · have heq : grid.nearer p best id = some (id, distance p (grid.point id)) := if_pos hnearer
      rw [heq]
      obtain ⟨hsound, hnone⟩ := ih (some (id, distance p (grid.point id))) (by
        rintro _ ⟨⟩
        exact ⟨hnearer.1, hnearer.2.2⟩)
      exact ⟨hsound, fun h => nomatch (hnone h).1⟩
    · have heq : grid.nearer p best id = best := if_neg hnearer
      rw [heq]
      obtain ⟨hsound, hnone⟩ := ih best hbest
      refine ⟨hsound, fun h => ?_⟩
      obtain ⟨hempty, hrest⟩ := hnone h
      refine ⟨hempty, List.forall_mem_cons.2 ⟨fun hid => hnearer ⟨hid.1, ?_, hid.2⟩, hrest⟩⟩
      rw [hempty]
      exact nofun

theorem connector_spec {id : ℕ} (h : grid.connector p = some id) :
    ¬ grid.Blocked id ∧ grid.Free p (grid.point id) := by
  obtain ⟨found, hfound, rfl⟩ := Option.map_eq_some_iff.1 h
  exact (foldl_nearer (List.range grid.n) none nofun).1 found hfound

theorem connector_none (h : grid.connector p = none) (id : ℕ) (hid : id < grid.n) :
    ¬ (¬ grid.Blocked id ∧ grid.Free p (grid.point id)) :=
  ((foldl_nearer (List.range grid.n) none nofun).2 (Option.map_eq_none_iff.1 h)).2 id
    (List.mem_range.2 hid)

end connector

/-! ## The route -/

/-- The raw route through cells that are edges of the grid apart is joined. -/
theorem joined_rawPoints {grid : Grid} {options : Options} {first goal : ℕ} {ids : List ℕ}
    (hstart : ¬ grid.Tight options.start) (hgoal : ¬ grid.Tight options.goal)
    (hfirst : grid.connector options.start = some first)
    (hlast : grid.connector options.goal = some goal) (hhead : ids.head? = some goal)
    (hend : ids.getLast? = some first)
    (hchain : ids.IsChain fun i p => ∃ dir, Edge grid p dir i) :
    Joined grid (rawPoints grid options ids) := by
  obtain ⟨hblocked, hfree⟩ := connector_spec hfirst
  obtain ⟨hblocked', hfree'⟩ := connector_spec hlast
  -- a cell is behind an edge, or the first one
  have hopen : ∀ i ∈ ids, ¬ grid.Blocked i := by
    clear hhead
    induction hchain with
    | nil => exact nofun
    | singleton i =>
      cases hend
      exact List.forall_mem_singleton.2 hblocked
    | cons_cons hedge _ ih =>
      obtain ⟨dir, hedge⟩ := hedge
      exact List.forall_mem_cons.2 ⟨hedge.unblocked, ih hend⟩
  have hcells : (ids.reverse.map grid.point).IsChain (Keeps grid.map (grid.required + MERGE)) := by
    rw [List.isChain_map, List.isChain_reverse]
    refine List.IsChain.imp_of_mem_imp ?_ hchain
    rintro i p hi hp ⟨dir, hedge⟩
    exact fun t ht => hedge.free.clear (hopen p hp) (hopen i hi) ht
  refine ⟨?_, List.isChain_cons.2 ⟨?_, List.isChain_append.2 ⟨hcells, .singleton _, ?_⟩⟩⟩
  · intro p hp
    simp only [rawPoints, List.mem_cons, List.mem_append, List.mem_map, List.mem_reverse,
      List.not_mem_nil, or_false] at hp
    rcases hp with rfl | ⟨i, hi, rfl⟩ | rfl
    · exact hstart
    · exact hopen i hi
    · exact hgoal
  · intro q hq
    have hq' : q = grid.point first := by
      rw [List.head?_append, List.head?_map, List.head?_reverse, hend] at hq
      exact (Option.some.inj hq).symm
    rw [hq']
    exact fun t ht => hfree.clear hstart hblocked ht
  · intro q hq q' hq'
    rw [List.getLast?_map, List.getLast?_reverse, hhead] at hq
    cases hq
    cases hq'
    exact Keeps.symm fun t ht => hfree'.clear hgoal hblocked' ht

/-- How `planRoute` ends. -/
inductive Planned (map : PlanMap) (options : Options) : Route → Prop
  | start : (gridOf map options).Tight options.start →
      Planned map options (result (gridOf map options) options [] [] "start" none)
  | goal : (gridOf map options).Tight options.goal →
      Planned map options (result (gridOf map options) options [] [] "goal" none)
  | unconnected : (gridOf map options).connector options.start = none ∨
        (gridOf map options).connector options.goal = none →
      Planned map options (result (gridOf map options) options [] [] "blocked" none)
  | blocked {first goal : ℕ} {s : Search} :
      (gridOf map options).connector options.start = some first →
      (gridOf map options).connector options.goal = some goal →
      search (gridOf map options) options.algorithm goal (stepsOf (gridOf map options))
        (PlanRoute.start (gridOf map options) options.algorithm goal first) = some (s, false) →
      Planned map options (result (gridOf map options) options s.expanded [] "blocked" none)
  | found {first goal : ℕ} {s : Search} {ids : List ℕ} :
      ¬ (gridOf map options).Tight options.start → ¬ (gridOf map options).Tight options.goal →
      (gridOf map options).connector options.start = some first →
      (gridOf map options).connector options.goal = some goal →
      search (gridOf map options) options.algorithm goal (stepsOf (gridOf map options))
        (PlanRoute.start (gridOf map options) options.algorithm goal first) = some (s, true) →
      chain s.parents s.expanded.length goal = some ids →
      Planned map options (result (gridOf map options) options s.expanded
        (options.start :: shorten (gridOf map options)
          (rawPoints (gridOf map options) options ids) 0 options.start) "" (s.g goal))

theorem planned_of_some {map : PlanMap} {options : Options} {route : Route}
    (h : planRoute map options = some route) : Planned map options route := by
  unfold planRoute at h
  dsimp only at h
  split at h
  · cases h
  · split at h
    · rename_i hstart
      cases h
      exact .start hstart
    · rename_i hstart
      split at h
      · rename_i hgoal
        cases h
        exact .goal hgoal
      · rename_i hgoal
        split at h
        · rename_i first goal hfirst hlast
          obtain ⟨⟨s, reached⟩, hsearch, h⟩ := Option.bind_eq_some_iff.1 h
          dsimp only at h
          cases reached with
          | false =>
            cases h
            exact .blocked hfirst hlast hsearch
          | true =>
            obtain ⟨ids, hids, h⟩ := Option.bind_eq_some_iff.1 h
            cases h
            exact .found hstart hgoal hfirst hlast hsearch hids
        · rename_i hnone
          cases h
          refine .unconnected ?_
          cases hfirst : (gridOf map options).connector options.start with
          | none => exact .inl rfl
          | some first =>
            cases hlast : (gridOf map options).connector options.goal with
            | none => exact .inr rfl
            | some goal => exact absurd hlast (hnone first goal hfirst)

/-- A route that is not empty leads from the start to the goal, and every point of every segment
of it is farther from the walls and the obstacles than the radius and the margin. -/
structure Safe (map : PlanMap) (options : Options) (path : List Point) : Prop where
  start : path.head? = some options.start
  goal : ∃ final, path.getLast? = some final ∧ distance final options.goal ≤ MERGE
  clear : path.IsChain (Keeps map (options.radius + options.margin))
  computed : (∀ r ∈ map.obstacles, 0 ≤ r.w ∧ 0 ≤ r.h) → path.IsChain fun a b =>
    ∀ t ∈ Set.Icc (0 : ℝ) 1, options.radius + options.margin < planningClearance (along a b t) map

/-- An empty room with the robot at its goal. -/
noncomputable def roomMap : PlanMap where
  width := 2
  height := 2
  start := ⟨1, 1⟩
  goal := ⟨1, 1⟩
  obstacles := []

noncomputable def roomOptions : Options := { defaults roomMap with cell := 1 }

theorem planned_room : ∃ route, planRoute roomMap roomOptions = some route ∧ route.path ≠ [] := by
  have hgrid : gridOf roomMap roomOptions = ⟨roomMap, 18 / 100, 3, 3, 1⟩ := by
    unfold gridOf roomOptions defaults roomMap
    norm_num
  have hclear : ¬ (gridOf roomMap roomOptions).Tight ⟨1, 1⟩ := by
    rw [hgrid]
    unfold Grid.Tight planningClearance wallClearance roomMap SLACK
    norm_num
  have hpoint : (gridOf roomMap roomOptions).point 4 = ⟨1, 1⟩ := by
    rw [hgrid]
    unfold Grid.point Grid.column Grid.row
    norm_num
    decide
  have hfree : (gridOf roomMap roomOptions).Free ⟨1, 1⟩ ⟨1, 1⟩ := by
    rw [hgrid]
    unfold Grid.Free segmentClearance obstacleClearance wallClearance roomMap SLACK
    norm_num
  obtain ⟨first, hfirst⟩ : ∃ first,
      (gridOf roomMap roomOptions).connector roomOptions.start = some first := by
    refine Option.ne_none_iff_exists'.1 fun hnone => connector_none hnone 4 ?_ ⟨?_, ?_⟩
    · rw [hgrid]
      decide
    · unfold Grid.Blocked
      rw [hpoint]
      exact hclear
    · rw [hpoint]
      exact hfree
  have hsize : ¬ (roomOptions.cell = 0 ∨
      (gridOf roomMap roomOptions).cols * (gridOf roomMap roomOptions).rows < 0) := by
    rw [hgrid]
    unfold roomOptions
    norm_num
  unfold planRoute
  dsimp only
  rw [if_neg hsize,
    if_neg (show ¬ (gridOf roomMap roomOptions).Tight roomOptions.start from hclear),
    if_neg (show ¬ (gridOf roomMap roomOptions).Tight roomOptions.goal from hclear), hfirst,
    show (gridOf roomMap roomOptions).connector roomOptions.goal = some first from hfirst]
  dsimp only
  have hsearch : search (gridOf roomMap roomOptions) roomOptions.algorithm first
      (stepsOf (gridOf roomMap roomOptions))
      (start (gridOf roomMap roomOptions) roomOptions.algorithm first first) =
        some (close (gridOf roomMap roomOptions) (taken (start (gridOf roomMap roomOptions)
          roomOptions.algorithm first first) []) first, true) := by
    have hpop : BinaryHeap.pop Entry.f (start (gridOf roomMap roomOptions) roomOptions.algorithm
        first first).heap = some (⟨first, heuristic (gridOf roomMap roomOptions)
          roomOptions.algorithm first first⟩, []) := by
      unfold start
      dsimp only
      rw [List.perm_singleton.1 (BinaryHeap.push_perm Entry.f [] _)]
      rfl
    unfold stepsOf search
    rw [hpop]
    dsimp only
    rw [if_neg (by exact Bool.false_ne_true), if_pos rfl]
    rfl
  rw [hsearch]
  exact ⟨_, rfl, List.cons_ne_nil _ _⟩

end Questix.LabPage.PlanRoute

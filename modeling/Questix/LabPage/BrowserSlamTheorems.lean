/-
Questix.LabPage.BrowserSlamTheorems — what a live map keeps over every sequence
of scans.

`Kept` is the invariant of the map. A call that is refused leaves it as it is;
one that is accepted casts its rays from a cell of the grid, since the position
is at most 13 m off.
-/
import Questix.LabPage.BrowserSlamHash
import Questix.LabPage.BrowserSlamRays
import Questix.Lib.Trace

namespace Questix.LabPage.UsbSlam

open Questix.Lib

variable {slam : Slam} {scan : List Point}

def Near (p : Pose) : Prop := |p.x| ≤ 13 ∧ |p.y| ≤ 13

theorem floor_in_grid {u : ℝ} (h : |u - 320| ≤ 260) : 0 ≤ ⌊u⌋ ∧ ⌊u⌋ < MAP_SIZE := by
  obtain ⟨hlow, hhigh⟩ := abs_le.1 h
  refine ⟨Int.floor_nonneg.2 (by linarith), Int.floor_lt.2 ?_⟩
  unfold MAP_SIZE
  push_cast
  linarith

theorem inGrid_startCell {p : Pose} (h : Near p) : inGrid (startCell p).1 (startCell p).2 := by
  obtain ⟨hx, hy⟩ := h
  have hx' : |p.x / RESOLUTION_METRES + ((MAP_SIZE : ℤ) : ℝ) / 2 - 320| ≤ 260 := by
    unfold RESOLUTION_METRES MAP_SIZE
    obtain ⟨hlow, hhigh⟩ := abs_le.1 hx
    rw [abs_le]
    constructor <;> push_cast <;> linarith
  have hy' : |((MAP_SIZE : ℤ) : ℝ) / 2 - p.y / RESOLUTION_METRES - 320| ≤ 260 := by
    unfold RESOLUTION_METRES MAP_SIZE
    obtain ⟨hlow, hhigh⟩ := abs_le.1 hy
    rw [abs_le]
    constructor <;> push_cast <;> linarith
  exact ⟨(floor_in_grid hx').1, (floor_in_grid hy').1, (floor_in_grid hx').2,
    (floor_in_grid hy').2⟩

theorem inRange_integrate (p : Pose) {grid : Grid} (h : InRange grid) (points : List Point) :
    InRange (integrate p grid points) := by
  unfold integrate
  induction transform points p generalizing grid with
  | nil => exact h
  | cons q rest ih => exact ih (inRange_ray h _ _ _ _)

/-- What a map keeps. -/
structure Kept (slam : Slam) : Prop where
  range : InRange slam.grid
  hash : slam.hash = rebuild slam.frames
  frames : slam.frames.length ≤ MAX_KEYFRAMES
  near : Near slam.pose

theorem kept_start : Kept {} where
  range := fun _ => (by decide : (-20 : ℤ) ≤ 0 ∧ (0 : ℤ) ≤ 20)
  hash := rfl
  frames := Nat.zero_le _
  near := by simp [Near]

theorem length_pushFrame {frames : List (List Feature)} (h : frames.length ≤ MAX_KEYFRAMES)
    (frame : List Feature) : (pushFrame frames frame).length ≤ MAX_KEYFRAMES := by
  unfold pushFrame
  split
  · rw [List.length_tail, List.length_append, List.length_singleton]
    omega
  · rename_i hfew
    exact not_lt.1 hfew

/-- What an accepted scan does to the map. -/
inductive Accepted (slam : Slam) (scan : List Point) (slam' : Slam) : Prop
  | between (same : slam'.grid = slam.grid ∧ slam'.frames = slam.frames ∧ slam'.hash = slam.hash)
  | key (grid : slam'.grid = integrate slam'.pose slam.grid scan)
      (frames : ∃ frame, slam'.frames = pushFrame slam.frames frame)
      (hash : slam'.hash = rebuild slam'.frames)

theorem accepted_accept (points : List Point) (result : Result) :
    (accept slam scan points result).pose = result.pose ∧
      Accepted slam scan (accept slam scan points result) := by
  unfold accept
  dsimp only
  split
  · exact ⟨rfl, .key rfl ⟨_, rfl⟩ rfl⟩
  · exact ⟨rfl, .between ⟨rfl, rfl, rfl⟩⟩

/-- A call that does not return ok leaves the map as it is. -/
structure Unchanged (slam slam' : Slam) : Prop where
  pose : slam'.pose = slam.pose
  path : slam'.path = slam.path
  frames : slam'.frames = slam.frames
  hash : slam'.hash = slam.hash
  grid : slam'.grid = slam.grid

theorem process_cases (slam : Slam) (scan : List Point) :
    ((process slam scan).2.ok = false ∧ Unchanged slam (process slam scan).1) ∨
      (process slam scan).2.ok = true ∧ Near (process slam scan).1.pose ∧
        Accepted slam scan (process slam scan).1 := by
  unfold process
  dsimp only
  split
  · exact .inl ⟨rfl, rfl, rfl, rfl, rfl, rfl⟩
  · generalize (if slam.accepted ≠ 0 then matchPose slam (thin scan)
      else ⟨true, slam.pose, 1, false⟩ : Result) = result
    split
    · rename_i hrefused
      exact .inl ⟨by simpa [Result.answer] using hrefused, rfl, rfl, rfl, rfl, rfl⟩
    · rename_i hok
      split
      · exact .inl ⟨rfl, rfl, rfl, rfl, rfl, rfl⟩
      · rename_i hnear
        obtain ⟨hpose, haccepted⟩ := accepted_accept (thin scan) _
        refine .inr ⟨by simpa [Result.answer] using hok, ?_, haccepted⟩
        rw [hpose]
        exact max_le_iff.1 (not_lt.1 hnear)

theorem Kept.process (h : Kept slam) (scan : List Point) : Kept (UsbSlam.process slam scan).1 := by
  rcases process_cases slam scan with ⟨-, hsame⟩ | ⟨-, hnear, haccepted⟩
  · exact ⟨hsame.grid ▸ h.range, hsame.hash.trans (hsame.frames ▸ h.hash),
      hsame.frames ▸ h.frames, hsame.pose ▸ h.near⟩
  · cases haccepted with
    | between same =>
      exact ⟨same.1 ▸ h.range, same.2.2.trans (same.2.1 ▸ h.hash), same.2.1 ▸ h.frames, hnear⟩
    | key grid frames hash =>
      obtain ⟨frame, hframes⟩ := frames
      refine ⟨?_, hash, ?_, hnear⟩
      · rw [grid]
        exact inRange_integrate _ h.range scan
      · rw [hframes]
        exact length_pushFrame h.frames frame

/-- What one call of a run does. -/
structure CallKept (t : Step Slam (List Point) Answer) : Prop where
  refused : t.out.ok = false → Unchanged t.pre t.post
  range : InRange t.post.grid
  /-- An accepted call leaves the values or casts a ray for each point. -/
  grid : t.out.ok = true → t.post.grid = t.pre.grid ∨
    t.post.grid = (transform t.event t.post.pose).foldl (castRay t.post.pose) t.pre.grid
  /-- Every ray that is cast at its position. -/
  rays : t.out.ok = true →
    inGrid (startCell t.post.pose).1 (startCell t.post.pose).2 ∧
      ∀ (grid : Grid) (q : Point), RayKept grid (startCell t.post.pose).1
        (startCell t.post.pose).2 (cellOf q).1 (cellOf q).2
  frames : t.post.frames.length ≤ MAX_KEYFRAMES
  hash : HashKept t.post.frames t.post.hash
  /-- `nearest` is the search of all points of the hash. -/
  linear : ∃ points : List Feature, (∀ p, p ∈ points ↔ Hashed t.post.hash p) ∧
    ∀ x y, nearest t.post.hash x y = linearSearch points x y
  /-- It is a point at the least distance, where there is one within the radius. -/
  least : ∀ x y,
    (∀ q, nearest t.post.hash x y = some q → Hashed t.post.hash q ∧
      distanceSq x y q < MATCH_RADIUS_METRES ^ 2 ∧
      ∀ p, Hashed t.post.hash p → distanceSq x y q ≤ distanceSq x y p) ∧
    (nearest t.post.hash x y = none →
      ∀ p, Hashed t.post.hash p → MATCH_RADIUS_METRES ^ 2 ≤ distanceSq x y p)

/-- Every call of every sequence of scans keeps the map. -/
theorem slam_kept (scans : List (List Point)) : ∀ t ∈ trace process {} scans, CallKept t := by
  intro t ht
  obtain ⟨-, hpost⟩ := trace_invariant Kept (fun slam scan h => h.process scan) scans {}
    kept_start t ht
  have hstep := eq_stepOf_of_mem_trace ht
  have hout : t.out = (process t.pre t.event).2 := congrArg Step.out hstep
  have hpost' : t.post = (process t.pre t.event).1 := congrArg Step.post hstep
  have hcases := process_cases t.pre t.event
  rw [← hout, ← hpost'] at hcases
  have hhash : HashKept t.post.frames t.post.hash := hpost.hash ▸ hashKept_rebuild t.post.frames
  obtain ⟨points, hpoints, hnearest⟩ := nearest_eq_linearSearch t.post.frames hhash
  refine ⟨fun hrefused => ?_, hpost.range, fun hok => ?_, fun hok => ?_, hpost.frames, hhash,
    ⟨points, hpoints, hnearest⟩, fun x y => ?_⟩
  · rcases hcases with ⟨-, hsame⟩ | ⟨hok, -⟩
    · exact hsame
    · rw [hok] at hrefused
      cases hrefused
  · rcases hcases with ⟨hrefused, -⟩ | ⟨-, -, haccepted⟩
    · rw [hok] at hrefused
      cases hrefused
    · cases haccepted with
      | between same => exact .inl same.1
      | key grid frames hash => exact .inr grid
  · have hstart := inGrid_startCell hpost.near
    exact ⟨hstart, fun grid q => ray_kept grid _ _ hstart⟩
  · obtain ⟨hsome, hnone⟩ := linearSearch_spec points x y
    rw [hnearest x y]
    simpa only [hpoints] using And.intro hsome hnone

noncomputable def wall : List Point := (List.range 60).map fun i : ℕ => ⟨1, i / 100⟩

theorem slam_kept_wall : CallKept (stepOf process {} wall) :=
  slam_kept [wall] _ List.mem_cons_self

end Questix.LabPage.UsbSlam

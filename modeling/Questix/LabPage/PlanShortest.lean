/-
Questix.LabPage.PlanShortest — the search of a route ends, misses no way over the
grid, and finds the shortest one up to `GAIN` for each edge.

The heuristic is a norm (`octile_add`), so no edge makes it fall by more than its
length. `Ordered` is the state between two turns of the loop: the cells are
closed in the order of their keys, and no entry of the heap is before the last
one. `OnWay` is what follows for a way over the grid: its end is closed, or an
entry waits that is no farther than it.
-/
import Questix.LabPage.PlanRouteTheorems

namespace Questix.LabPage.PlanRoute

open Questix.Lib

/-- A way from `first` over edges of the grid: where it ends, its length and its edges. -/
inductive GridWay (grid : Grid) (first : ℕ) : ℕ → ℝ → ℕ → Prop
  | start : GridWay grid first first 0 0
  | step {i j edges : ℕ} {length : ℝ} {dir : ℤ × ℤ} : GridWay grid first i length edges →
      dir ∈ dirs → Edge grid i dir j →
        GridWay grid first j (length + grid.step dir) (edges + 1)

variable {grid : Grid} {algorithm : Algorithm} {first goal id : ℕ} {s : Search} {key : ℝ}

theorem step_nonneg (hcell : 0 < grid.cell) (dir : ℤ × ℤ) : 0 ≤ grid.step dir :=
  mul_nonneg hcell.le (hypot_nonneg _ _)

theorem GridWay.nonneg (hcell : 0 < grid.cell) {j edges : ℕ} {length : ℝ}
    (h : GridWay grid first j length edges) : 0 ≤ length := by
  induction h with
  | start => exact le_refl _
  | step _ _ _ ih => exact add_nonneg ih (step_nonneg hcell _)

theorem gain_pos : 0 < GAIN := by norm_num [GAIN]

/-! ## The heuristic -/

/-- The length of a way over `x` columns and `y` rows in steps to the eight neighbours. -/
noncomputable def octile (x y : ℝ) : ℝ := max |x| |y| + (√2 - 1) * min |x| |y|

theorem one_le_sqrt_two : 1 ≤ √(2 : ℝ) := Real.one_le_sqrt.2 one_le_two

theorem sqrt_two_le : √(2 : ℝ) ≤ 2 := Real.sqrt_le_iff.2 ⟨by norm_num, by norm_num⟩

theorem octile_eq (x y : ℝ) :
    octile x y = max (|x| + (√2 - 1) * |y|) (|y| + (√2 - 1) * |x|) := by
  have hlo := one_le_sqrt_two
  have hhi := sqrt_two_le
  unfold octile
  rcases le_total |x| |y| with h | h
  · rw [max_eq_right h, min_eq_left h, max_eq_right (by nlinarith)]
  · rw [max_eq_left h, min_eq_right h, max_eq_left (by nlinarith)]

theorem octile_add (x y x' y' : ℝ) : octile (x + x') (y + y') ≤ octile x y + octile x' y' := by
  have hc : 0 ≤ √(2 : ℝ) - 1 := sub_nonneg.2 one_le_sqrt_two
  have hx := abs_add_le x x'
  have hy := abs_add_le y y'
  simp only [octile_eq]
  refine max_le ?_ ?_
  · refine le_trans ?_ (add_le_add (le_max_left _ _) (le_max_left _ _))
    nlinarith [mul_le_mul_of_nonneg_left hy hc]
  · refine le_trans ?_ (add_le_add (le_max_right _ _) (le_max_right _ _))
    nlinarith [mul_le_mul_of_nonneg_left hx hc]

theorem octile_dir {dir : ℤ × ℤ} (hdir : dir ∈ dirs) :
    octile (-dir.1) (-dir.2) = hypot dir.1 dir.2 := by
  simp only [dirs, List.mem_cons, List.not_mem_nil, or_false] at hdir
  rcases hdir with rfl | rfl | rfl | rfl | rfl | rfl | rfl | rfl <;>
    norm_num [octile, hypot]

theorem Edge.position {dir : ℤ × ℤ} {j : ℕ} (h : Edge grid id dir j) :
    grid.column j = grid.column id + dir.1 ∧ grid.row j = grid.row id + dir.2 ∧ j < grid.n := by
  obtain ⟨hx0, hx1⟩ := h.column
  obtain ⟨hy0, hy1⟩ := h.row
  have hcols : 0 < grid.cols := hx0.trans_lt hx1
  have hj : (j : ℤ) = (grid.row id + dir.2) * grid.cols + (grid.column id + dir.1) := by
    rw [h.cell, Int.toNat_of_nonneg (add_nonneg (mul_nonneg hy0 hcols.le) hx0)]
  refine ⟨?_, ?_, ?_⟩
  · show (j : ℤ).tmod grid.cols = _
    rw [Int.tmod_eq_emod_of_nonneg (Int.natCast_nonneg j), hj, Int.mul_add_emod_self_right,
      Int.emod_eq_of_lt hx0 hx1]
  · show (j : ℤ).fdiv grid.cols = _
    rw [Int.fdiv_eq_ediv_of_nonneg _ hcols.le, hj, Int.add_comm,
      Int.add_mul_ediv_right _ _ hcols.ne', Int.ediv_eq_zero_of_lt hx0 hx1, zero_add]
  · unfold Grid.n
    have hlt : (j : ℤ) < grid.cols * grid.rows := by
      rw [hj]
      nlinarith
    omega

/-- The heuristic falls over an edge by no more than its length. -/
theorem heuristic_le (algorithm : Algorithm) (goal : ℕ) (hcell : 0 < grid.cell)
    {dir : ℤ × ℤ} (hdir : dir ∈ dirs) {j : ℕ} (hedge : Edge grid id dir j) :
    heuristic grid algorithm goal id ≤ grid.step dir + heuristic grid algorithm goal j := by
  obtain ⟨hcolumn, hrow, -⟩ := hedge.position
  unfold heuristic
  cases algorithm with
  | dijkstra => exact add_nonneg (step_nonneg hcell dir) (le_refl _)
  | astar =>
    have hadd := octile_add (-dir.1) (-dir.2) (grid.column j - grid.column goal)
      (grid.row j - grid.row goal)
    rw [octile_dir hdir, hcolumn, hrow] at hadd
    push_cast at hadd
    unfold Grid.step
    rw [hcolumn, hrow, ← mul_add]
    refine mul_le_mul_of_nonneg_left ?_ hcell.le
    push_cast
    refine le_of_eq_of_le ?_ hadd
    show octile _ _ = _
    congr 1 <;> ring

theorem heuristic_goal : heuristic grid algorithm goal goal = 0 := by
  unfold heuristic
  cases algorithm <;> simp

/-! ## The order of the search -/

/-- Over the step from `i` nothing is left to gain. -/
def Relaxed (grid : Grid) (s : Search) (i : ℕ) (dir : ℤ × ℤ) : Prop :=
  ∀ way j, s.g i = some way → Edge grid i dir j →
    ∃ old, s.g j = some old ∧ old ≤ way + grid.step dir + GAIN

/-- The keys of the closed cells are up to `key`, and those of the entries are from `key` on. -/
structure Ordered (grid : Grid) (algorithm : Algorithm) (first goal : ℕ) (key : ℝ) (s : Search) :
    Prop where
  heap : BinaryHeap.IsHeap Entry.f s.heap
  root : s.g first = some 0
  ways : ∀ j way, s.g j = some way → ∃ edges, GridWay grid first j way edges
  entries : ∀ e ∈ s.heap, key ≤ e.f ∧
    ∃ way, s.g e.id = some way ∧ way + heuristic grid algorithm goal e.id ≤ e.f
  waiting : ∀ j way, s.g j = some way → s.closed j = false →
    ∃ e ∈ s.heap, e.id = j ∧ e.f = way + heuristic grid algorithm goal j
  behind : ∀ i, s.closed i = true →
    ∃ way, s.g i = some way ∧ way + heuristic grid algorithm goal i ≤ key

theorem ordered_start : Ordered grid algorithm first goal (heuristic grid algorithm goal first)
    (start grid algorithm goal first) := by
  have hheap : (start grid algorithm goal first).heap =
      [⟨first, heuristic grid algorithm goal first⟩] :=
    List.perm_singleton.1 (BinaryHeap.push_perm Entry.f [] _)
  have hg : (start grid algorithm goal first).g first = some 0 := by simp [start]
  have hother : ∀ j way, (start grid algorithm goal first).g j = some way →
      j = first ∧ way = 0 := by
    intro j way hj
    have hj' : j = first ∧ 0 = way := by simpa [start, Function.update_apply] using hj
    exact hj'.imp_right Eq.symm
  refine ⟨?_, hg, fun j way hj => ?_, ?_, fun j way hj _ => ?_, nofun⟩
  · rw [hheap]
    intro k hk hlt
    rw [List.length_singleton] at hlt
    omega
  · obtain ⟨rfl, rfl⟩ := hother j way hj
    exact ⟨0, .start⟩
  · rw [hheap]
    exact List.forall_mem_singleton.2 ⟨le_refl _, 0, hg, (zero_add _).le⟩
  · obtain ⟨rfl, rfl⟩ := hother j way hj
    rw [hheap]
    exact ⟨_, List.mem_singleton_self _, rfl, (zero_add _).symm⟩

/-- What `k` neighbours leave as it is. -/
structure Kept (grid : Grid) (k : ℕ) (s s' : Search) : Prop where
  closed : s'.closed = s.closed
  g : ∀ i, s.closed i = true → s'.g i = s.g i
  relaxed : ∀ i dir, s.closed i = true → Relaxed grid s i dir → Relaxed grid s' i dir
  heap : s'.heap.length ≤ s.heap.length + k

theorem Kept.refl (k : ℕ) : Kept grid k s s :=
  ⟨rfl, fun _ _ => rfl, fun _ _ _ h => h, Nat.le_add_right _ _⟩

theorem Kept.trans {k k' : ℕ} {s' s'' : Search} (h : Kept grid k s s') (h' : Kept grid k' s' s'') :
    Kept grid (k' + k) s s'' where
  closed := h'.closed.trans h.closed
  g i hi := (h'.g i (h.closed ▸ hi)).trans (h.g i hi)
  relaxed i dir hi hdone := h'.relaxed i dir (h.closed ▸ hi) (h.relaxed i dir hi hdone)
  heap := by
    have := h.heap
    have := h'.heap
    omega

section improved

variable {way : ℝ} {dir : ℤ × ℤ} {j : ℕ} (hcell : 0 < grid.cell) (hdir : dir ∈ dirs)
  (hedge : Edge grid id dir j) (hopen : s.closed j = false)
  (hless : ∀ old, s.g j = some old → way + grid.step dir + GAIN < old)

include hopen hless in
theorem kept_improved :
    Kept grid 1 s (improved grid algorithm goal id j (way + grid.step dir) s) := by
  have hne : ∀ {i}, s.closed i = true → i ≠ j := by
    rintro i hi rfl
    rw [hi] at hopen
    cases hopen
  refine ⟨rfl, fun i hi => Function.update_of_ne (hne hi) .., ?_,
    (BinaryHeap.push_perm _ _ _).length_eq.le⟩
  intro i dir' hi hdone way' t hway' ht
  rw [show (improved grid algorithm goal id j (way + grid.step dir) s).g i = s.g i from
    Function.update_of_ne (hne hi) ..] at hway'
  obtain ⟨old, hold, hle⟩ := hdone way' t hway' ht
  by_cases heq : t = j
  · subst heq
    refine ⟨_, Function.update_self .., ?_⟩
    have := hless old hold
    have := gain_pos
    linarith
  · exact ⟨old, (Function.update_of_ne heq ..).trans hold, hle⟩

include hcell hdir hedge hopen hless in
theorem Ordered.gains (h : Ordered grid algorithm first goal key s) (hway : s.g id = some way)
    (hkey : way + heuristic grid algorithm goal id = key) :
    Ordered grid algorithm first goal key
      (improved grid algorithm goal id j (way + grid.step dir) s) := by
  have hkept : Kept grid 1 s (improved grid algorithm goal id j (way + grid.step dir) s) :=
    kept_improved hopen hless
  have hgain := gain_pos
  have hg : ∀ {i}, i ≠ j →
      (improved grid algorithm goal id j (way + grid.step dir) s).g i = s.g i :=
    fun hi => Function.update_of_ne hi ..
  have hgj : (improved grid algorithm goal id j (way + grid.step dir) s).g j =
      some (way + grid.step dir) := Function.update_self ..
  have hmem : ∀ e, e ∈ (improved grid algorithm goal id j (way + grid.step dir) s).heap ↔
      e = ⟨j, way + grid.step dir + heuristic grid algorithm goal j⟩ ∨ e ∈ s.heap :=
    fun e => (BinaryHeap.push_perm _ _ _).mem_iff.trans List.mem_cons
  obtain ⟨edges, hedges⟩ := h.ways id way hway
  refine ⟨BinaryHeap.isHeap_push h.heap, ?_, fun i w hi => ?_, fun e he => ?_,
    fun i w hi hiopen => ?_, fun i hi => ?_⟩
  · -- no way to the first cell is less than nothing
    refine (hg ?_).trans h.root
    rintro rfl
    have := hless 0 h.root
    have := hedges.nonneg hcell
    have := step_nonneg hcell dir
    linarith
  · by_cases heq : i = j
    · subst heq
      rw [hgj] at hi
      cases hi
      exact ⟨edges + 1, hedges.step hdir hedge⟩
    · exact h.ways i w (hg heq ▸ hi)
  · rcases (hmem e).1 he with rfl | he
    · refine ⟨?_, _, hgj, le_refl _⟩
      have := heuristic_le algorithm goal hcell hdir hedge
      dsimp only
      linarith
    · obtain ⟨hle, w, hw, hf⟩ := h.entries e he
      by_cases heq : e.id = j
      · rw [heq] at hw hf ⊢
        have := hless w hw
        exact ⟨hle, _, hgj, by linarith⟩
      · exact ⟨hle, w, (hg heq).trans hw, hf⟩
  · by_cases heq : i = j
    · subst heq
      rw [hgj] at hi
      cases hi
      exact ⟨_, (hmem _).2 (.inl rfl), rfl, rfl⟩
    · obtain ⟨e, he, hid, hf⟩ := h.waiting i w (hg heq ▸ hi) hiopen
      exact ⟨e, (hmem e).2 (.inr he), hid, hf⟩
  · obtain ⟨w, hw, hle⟩ := h.behind i hi
    exact ⟨w, (hkept.g i hi).trans hw, hle⟩

end improved

/-- Behind a neighbour nothing is left to gain over the step to it. -/
theorem Ordered.neighbour (hcell : 0 < grid.cell) (h : Ordered grid algorithm first goal key s)
    {way : ℝ} (hway : s.g id = some way) (hkey : way + heuristic grid algorithm goal id = key)
    {dir : ℤ × ℤ} (hdir : dir ∈ dirs) :
    Ordered grid algorithm first goal key (relax grid algorithm goal id s dir) ∧
      Kept grid 1 s (relax grid algorithm goal id s dir) ∧
      ((relax grid algorithm goal id s dir).g id = some way →
        Relaxed grid (relax grid algorithm goal id s dir) id dir) := by
  have hgain := gain_pos
  rcases relax_cases algorithm goal dir hway with ⟨j, hedge, hopen, hless, heq⟩ | ⟨heq, hnone⟩
  · rw [heq]
    refine ⟨h.gains hcell hdir hedge hopen hless hway hkey, kept_improved hopen hless,
      fun hid w t hw ht => ?_⟩
    obtain rfl : t = j := ht.cell.trans hedge.cell.symm
    rw [hid] at hw
    cases hw
    exact ⟨_, Function.update_self .., by linarith⟩
  · rw [heq]
    refine ⟨h, .refl 1, fun _ w t hw ht => ?_⟩
    rw [hway] at hw
    cases hw
    cases hclosed : s.closed t with
    | false => exact hnone t ht hclosed
    | true =>
      -- a closed cell has no greater key, and the heuristic does not fall by more than the step
      obtain ⟨old, hold, hle⟩ := h.behind t hclosed
      have := heuristic_le algorithm goal hcell hdir ht
      exact ⟨old, hold, by linarith⟩

theorem Ordered.spread (hcell : 0 < grid.cell) {way : ℝ} (l : List (ℤ × ℤ))
    (hl : ∀ dir ∈ l, dir ∈ dirs) (h : Ordered grid algorithm first goal key s)
    (hid : s.closed id = true) (hway : s.g id = some way)
    (hkey : way + heuristic grid algorithm goal id = key) :
    Ordered grid algorithm first goal key (l.foldl (relax grid algorithm goal id) s) ∧
      Kept grid l.length s (l.foldl (relax grid algorithm goal id) s) ∧
      ∀ dir ∈ l, Relaxed grid (l.foldl (relax grid algorithm goal id) s) id dir := by
  induction l generalizing s with
  | nil => exact ⟨h, .refl 0, nofun⟩
  | cons dir l ih =>
    obtain ⟨hdir, hl⟩ := List.forall_mem_cons.1 hl
    obtain ⟨h', hkept, hdone⟩ := h.neighbour hcell hway hkey hdir
    have hway' := (hkept.g id hid).trans hway
    have hid' : (relax grid algorithm goal id s dir).closed id = true :=
      hkept.closed ▸ hid
    obtain ⟨h'', hkept', hdone'⟩ := ih hl h' hid' hway'
    exact ⟨h'', hkept.trans hkept', List.forall_mem_cons.2
      ⟨hkept'.relaxed id dir hid' (hdone hway'), hdone'⟩⟩

section top

variable {top : Entry} {heap : List Entry} (h : Ordered grid algorithm first goal key s)
  (htop : BinaryHeap.pop Entry.f s.heap = some (top, heap))

theorem mem_of_pop (htop : BinaryHeap.pop Entry.f s.heap = some (top, heap)) {e : Entry} :
    e ∈ s.heap ↔ e = top ∨ e ∈ heap :=
  (BinaryHeap.pop_perm _ htop).mem_iff.symm.trans List.mem_cons

include h htop

theorem Ordered.pass (hclosed : s.closed top.id = true) :
    Ordered grid algorithm first goal key (taken s heap) where
  heap := BinaryHeap.isHeap_pop h.heap htop
  root := h.root
  ways := h.ways
  entries e he := h.entries e ((mem_of_pop htop).2 (.inr he))
  waiting j way hj hopen := by
    obtain ⟨e, he, rfl, hf⟩ := h.waiting j way hj hopen
    refine ⟨e, ((mem_of_pop htop).1 he).resolve_left ?_, rfl, hf⟩
    rintro rfl
    exact Bool.false_ne_true (hopen.symm.trans hclosed)
  behind := h.behind

/-- The first entry of an open cell is the one with its way. -/
theorem Ordered.top_way (hopen : s.closed top.id = false) :
    ∃ way, s.g top.id = some way ∧ way + heuristic grid algorithm goal top.id = top.f := by
  obtain ⟨-, way, hway, hle⟩ := h.entries top ((mem_of_pop htop).2 (.inl rfl))
  obtain ⟨e, he, -, hf⟩ := h.waiting top.id way hway hopen
  exact ⟨way, hway, le_antisymm hle (hf ▸ BinaryHeap.pop_least h.heap htop he)⟩

theorem Ordered.closing (hopen : s.closed top.id = false) :
    Ordered grid algorithm first goal top.f (close grid (taken s heap) top.id) where
  heap := BinaryHeap.isHeap_pop h.heap htop
  root := h.root
  ways := h.ways
  entries e he := by
    have hmem := (mem_of_pop htop).2 (.inr he)
    exact ⟨BinaryHeap.pop_least h.heap htop hmem, (h.entries e hmem).2⟩
  waiting j way hj hjopen := by
    have hne : j ≠ top.id := by
      rintro rfl
      rw [show (close grid (taken s heap) top.id).closed top.id = true from
        Function.update_self ..] at hjopen
      cases hjopen
    rw [show (close grid (taken s heap) top.id).closed j = s.closed j from
      Function.update_of_ne hne ..] at hjopen
    obtain ⟨e, he, rfl, hf⟩ := h.waiting j way hj hjopen
    exact ⟨e, ((mem_of_pop htop).1 he).resolve_left fun heq => hne (heq ▸ rfl), rfl, hf⟩
  behind i hi := by
    by_cases heq : i = top.id
    · subst heq
      obtain ⟨way, hway, hf⟩ := h.top_way htop hopen
      exact ⟨way, hway, hf.le⟩
    · rw [show (close grid (taken s heap) top.id).closed i = s.closed i from
        Function.update_of_ne heq ..] at hi
      obtain ⟨way, hway, hle⟩ := h.behind i hi
      exact ⟨way, hway, hle.trans (h.entries top ((mem_of_pop htop).2 (.inl rfl))).1⟩

end top

/-! ## The loop -/

/-- The state between two turns of the loop. -/
structure Searching (grid : Grid) (algorithm : Algorithm) (first goal : ℕ) (s : Search) : Prop where
  ordered : ∃ key, Ordered grid algorithm first goal key s
  isOpen : s.closed goal = false
  relaxed : ∀ i, s.closed i = true → ∀ dir ∈ dirs, Relaxed grid s i dir

theorem searching_start :
    Searching grid algorithm first goal (start grid algorithm goal first) :=
  ⟨⟨_, ordered_start⟩, rfl, nofun⟩

section turn

variable {top : Entry} {heap : List Entry} (h : Searching grid algorithm first goal s)
  (htop : BinaryHeap.pop Entry.f s.heap = some (top, heap))

include h htop

theorem Searching.pass (hclosed : s.closed top.id = true) :
    Searching grid algorithm first goal (taken s heap) := by
  obtain ⟨key, hordered⟩ := h.ordered
  exact ⟨⟨key, hordered.pass htop hclosed⟩, h.isOpen, h.relaxed⟩

theorem Searching.expand (hcell : 0 < grid.cell) (hopen : s.closed top.id = false)
    (hother : top.id ≠ goal) :
    Searching grid algorithm first goal
        (dirs.foldl (relax grid algorithm goal top.id) (close grid (taken s heap) top.id)) ∧
      Kept grid 8 (close grid (taken s heap) top.id)
        (dirs.foldl (relax grid algorithm goal top.id) (close grid (taken s heap) top.id)) := by
  obtain ⟨key, hordered⟩ := h.ordered
  obtain ⟨way, hway, hf⟩ := hordered.top_way htop hopen
  have hself : (close grid (taken s heap) top.id).closed top.id = true := Function.update_self ..
  obtain ⟨h', hkept, hdone⟩ :=
    (hordered.closing htop hopen).spread hcell dirs (fun _ hdir => hdir) hself hway hf
  refine ⟨⟨⟨_, h'⟩, ?_, fun i hi dir hdir => ?_⟩, hkept⟩
  · rw [hkept.closed]
    exact (Function.update_of_ne hother.symm ..).trans h.isOpen
  · rw [hkept.closed] at hi
    by_cases heq : i = top.id
    · exact heq ▸ hdone dir hdir
    · refine hkept.relaxed i dir hi ?_
      have hold : (close grid (taken s heap) top.id).closed i = s.closed i :=
        Function.update_of_ne heq ..
      exact h.relaxed i (hold ▸ hi) dir hdir

end turn

/-- The end of a way over the grid is closed, and known up to `GAIN` for each edge, or an entry
waits that is no farther. -/
theorem Searching.onWay (hcell : 0 < grid.cell) (h : Searching grid algorithm first goal s)
    {j edges : ℕ} {length : ℝ} (hway : GridWay grid first j length edges) :
    (s.closed j = true ∧ ∃ way, s.g j = some way ∧ way ≤ length + edges * GAIN) ∨
      ∃ e ∈ s.heap, e.f ≤ length + edges * GAIN + heuristic grid algorithm goal j := by
  obtain ⟨key, hordered⟩ := h.ordered
  have hgain := gain_pos
  have known : ∀ {j way bound}, s.g j = some way → way ≤ bound →
      (s.closed j = true ∧ ∃ way, s.g j = some way ∧ way ≤ bound) ∨
        ∃ e ∈ s.heap, e.f ≤ bound + heuristic grid algorithm goal j := by
    intro j way bound hj hle
    cases hclosed : s.closed j with
    | true => exact .inl ⟨rfl, way, hj, hle⟩
    | false =>
      obtain ⟨e, he, -, hf⟩ := hordered.waiting j way hj hclosed
      exact .inr ⟨e, he, by linarith⟩
  induction hway with
  | start => exact known hordered.root (by simp)
  | @step i j edges length dir _ hdir hedge ih =>
    push_cast
    rcases ih with ⟨hclosed, way, hi, hle⟩ | ⟨e, he, hle⟩
    · obtain ⟨old, hj, hold⟩ := h.relaxed i hclosed dir hdir way j hi hedge
      exact known hj (by linarith)
    · have := heuristic_le algorithm goal hcell hdir hedge
      exact .inr ⟨e, he, by linarith⟩

/-- The length of a way from `first` to `goal` that is the shortest one up to `GAIN` for each edge
of the other. -/
structure Shortest (grid : Grid) (first goal : ℕ) (way : ℝ) : Prop where
  exists_way : ∃ edges, GridWay grid first goal way edges
  least : ∀ length edges, GridWay grid first goal length edges → way ≤ length + edges * GAIN

/-- The loop ends without the goal only where no way leads to it, and at the goal with the length
of the shortest one. -/
theorem search_shortest (hcell : 0 < grid.cell) {steps : ℕ} {s' : Search} {reached : Bool}
    (hsearch : search grid algorithm goal steps (start grid algorithm goal first) =
      some (s', reached)) :
    (reached = false → ∀ length edges, ¬ GridWay grid first goal length edges) ∧
      (reached = true → ∃ way, s'.g goal = some way ∧ Shortest grid first goal way) := by
  rcases search_rule (P := Searching grid algorithm first goal)
    (fun s top heap h htop hclosed => h.pass htop hclosed)
    (fun s top heap h htop hopen hother => (h.expand htop hcell hopen hother).1)
    searching_start hsearch with ⟨rfl, h, hempty⟩ | ⟨rfl, s₀, top, heap, h, htop, hopen, rfl, rfl⟩
  · refine ⟨fun _ length edges hway => ?_, nofun⟩
    rcases h.onWay hcell hway with ⟨hclosed, -⟩ | ⟨e, he, -⟩
    · rw [h.isOpen] at hclosed
      cases hclosed
    · rw [hempty] at he
      cases he
  · refine ⟨nofun, fun _ => ?_⟩
    obtain ⟨key, hordered⟩ := h.ordered
    obtain ⟨way, hway, hf⟩ := hordered.top_way htop hopen
    rw [heuristic_goal, add_zero] at hf
    refine ⟨way, hway, ⟨hordered.ways _ way hway, fun length edges hother => ?_⟩⟩
    rcases h.onWay hcell hother with ⟨hclosed, -⟩ | ⟨e, he, hle⟩
    · rw [hopen] at hclosed
      cases hclosed
    · rw [heuristic_goal, add_zero] at hle
      exact hf.le.trans ((BinaryHeap.pop_least hordered.heap htop he).trans hle)

/-! ## The end of the loop -/

theorem GridWay.lt (hfirst : first < grid.n) {j edges : ℕ} {length : ℝ}
    (h : GridWay grid first j length edges) : j < grid.n := by
  cases h with
  | start => exact hfirst
  | step _ _ hedge => exact hedge.position.2.2

/-- The cells that are not closed. -/
def Search.left (grid : Grid) (s : Search) : Finset ℕ :=
  (Finset.range grid.n).filter fun i => s.closed i = false

theorem search_isSome (hcell : 0 < grid.cell) (hfirst : first < grid.n) {steps : ℕ}
    (h : Searching grid algorithm first goal s)
    (hsteps : s.heap.length + 8 * (s.left grid).card < steps) :
    (search grid algorithm goal steps s).isSome := by
  induction steps generalizing s with
  | zero => cases hsteps
  | succ steps ih =>
    unfold search
    split
    · rfl
    · rename_i top heap htop
      have hlen : heap.length + 1 = s.heap.length := (BinaryHeap.pop_perm _ htop).length_eq
      dsimp only
      split
      · rename_i hclosed
        refine ih (h.pass htop hclosed) ?_
        show heap.length + 8 * (s.left grid).card < steps
        omega
      · rename_i hopen
        rw [Bool.not_eq_true] at hopen
        split
        · rfl
        · rename_i hother
          obtain ⟨h', hkept⟩ := h.expand htop hcell hopen hother
          obtain ⟨key, hordered⟩ := h.ordered
          obtain ⟨way, hway, -⟩ := hordered.top_way htop hopen
          obtain ⟨edges, hedges⟩ := hordered.ways _ way hway
          -- a cell that is closed is left no more
          have hfewer : ((dirs.foldl (relax grid algorithm goal top.id)
              (close grid (taken s heap) top.id)).left grid).card < (s.left grid).card := by
            refine Finset.card_lt_card ((Finset.ssubset_iff_of_subset fun i hi => ?_).2
              ⟨top.id, by simp [Search.left, hopen, hedges.lt hfirst], ?_⟩)
            · rw [Search.left, Finset.mem_filter, hkept.closed] at hi
              by_cases heq : i = top.id
              · simp_all [Search.left]
              · simpa [Search.left, close, taken, Function.update_of_ne heq] using hi
            · rw [Search.left, Finset.mem_filter, hkept.closed]
              simp [close]
          refine ih h' ((Nat.add_le_add hkept.heap
            (Nat.mul_le_mul_left 8 (Nat.le_sub_one_of_lt hfewer))).trans_lt ?_)
          show heap.length + 8 + 8 * ((s.left grid).card - 1) < steps
          omega

/-! ## The route -/

theorem foldl_nearer_mem {p : Point} (l : List ℕ) (best : Option (ℕ × ℝ)) :
    ∀ found ∈ l.foldl (grid.nearer p) best, found ∈ best ∨ found.1 ∈ l := by
  induction l generalizing best with
  | nil => exact fun found h => .inl h
  | cons i l ih =>
    intro found h
    have hcases := ih _ found h
    unfold Grid.nearer at hcases
    grind

theorem connector_lt {p : Point} (h : grid.connector p = some id) : id < grid.n := by
  obtain ⟨found, hfound, rfl⟩ := Option.map_eq_some_iff.1 h
  rcases foldl_nearer_mem _ _ found hfound with hnone | hmem
  · cases hnone
  · exact List.mem_range.1 hmem

/-- A route is told to be blocked only where no way over the grid joins the cells of the start and
the goal, and otherwise its length over the grid is that of the shortest one. -/
structure NearShortest (map : PlanMap) (options : Options) (route : Route) : Prop where
  blocked : route.reason = "blocked" → ∀ first goal,
    (gridOf map options).connector options.start = some first →
    (gridOf map options).connector options.goal = some goal →
      ∀ length edges, ¬ GridWay (gridOf map options) first goal length edges
  found : route.reason = "" → ∃ first goal way,
    (gridOf map options).connector options.start = some first ∧
    (gridOf map options).connector options.goal = some goal ∧ route.gridLength = some way ∧
    Shortest (gridOf map options) first goal way

theorem nearShortest_of_some {map : PlanMap} {options : Options} {route : Route}
    (hcell : 0 < options.cell) (h : planRoute map options = some route) :
    NearShortest map options route := by
  cases planned_of_some h with
  | start => exact ⟨(fun h => by simp [result] at h), (fun h => by simp [result] at h)⟩
  | goal => exact ⟨(fun h => by simp [result] at h), (fun h => by simp [result] at h)⟩
  | unconnected hnone =>
    refine ⟨fun _ first goal hfirst hgoal => ?_, (fun h => by simp [result] at h)⟩
    simp [hfirst, hgoal] at hnone
  | @blocked first goal s hfirst hgoal hsearch =>
    refine ⟨fun _ first' goal' hfirst' hgoal' => ?_, fun h => by simp [result] at h⟩
    obtain rfl := Option.some.inj (hfirst.symm.trans hfirst')
    obtain rfl := Option.some.inj (hgoal.symm.trans hgoal')
    exact (search_shortest hcell hsearch).1 rfl
  | @found first goal s ids _ _ hfirst hgoal hsearch _ =>
    refine ⟨(fun h => by simp [result] at h), fun _ => ?_⟩
    obtain ⟨way, hway⟩ := (search_shortest hcell hsearch).2 rfl
    exact ⟨first, goal, way, hfirst, hgoal, hway⟩

theorem planningLength_cons_le (a b : Point) (l : List Point) :
    planningLength (a :: l) ≤ distance a b + planningLength (b :: l) := by
  cases l with
  | nil => simpa [planningLength, distance] using hypot_nonneg _ _
  | cons c l =>
    have := distance_triangle a b c
    simp only [planningLength]
    linarith

/-- A way that leaves points out is not longer. -/
theorem planningLength_sublist {l' l : List Point} (h : l'.Sublist l) (a : Point) :
    planningLength (a :: l') ≤ planningLength (a :: l) := by
  induction h generalizing a with
  | slnil => exact le_refl _
  | cons b _ ih => exact (planningLength_cons_le a b _).trans (by simpa [planningLength] using ih b)
  | cons_cons b _ ih => simpa [planningLength] using ih b

theorem planningLength_snoc (l : List Point) (p q : Point) :
    planningLength (l ++ [p, q]) = planningLength (l ++ [p]) + distance p q := by
  induction l with
  | nil => simp [planningLength]
  | cons a l ih =>
    cases l with
    | nil => simp [planningLength]
    | cons b l =>
      simp only [List.cons_append, planningLength] at ih ⊢
      rw [ih, add_assoc]

theorem shorten_sublist (grid : Grid) (raw : List Point) (index : ℕ) (last : Point) :
    (shorten grid raw index last).Sublist (raw.drop (index + 1)) := by
  induction index, last using shorten.induct grid raw with
  | case1 index last h next hfar ih =>
    have hgt : index < next := lastSeen_gt grid raw h
    have hlt : next < raw.length :=
      (lastSeen_le grid raw index (raw.length - 1)).trans_lt (by omega)
    rw [shorten, dif_pos h, if_pos hfar]
    refine List.Sublist.trans ?_ (List.drop_sublist_drop_left raw (Nat.succ_le_of_lt hgt))
    have hpoint : pointAt raw next = raw[next] := List.getD_eq_getElem _ _ hlt
    rw [List.drop_eq_getElem_cons hlt, ← hpoint]
    exact ih.cons_cons _
  | case2 index last h next hnear ih =>
    have hgt : index < next := lastSeen_gt grid raw h
    rw [shorten, dif_pos h, if_neg hnear]
    exact ih.trans (List.drop_sublist_drop_left raw (by omega))
  | case3 index last h =>
    rw [shorten, dif_neg h]
    exact List.nil_sublist _

theorem distance_edge (hcell : 0 < grid.cell) {dir : ℤ × ℤ} {j : ℕ} (h : Edge grid id dir j) :
    distance (grid.point id) (grid.point j) = grid.step dir := by
  obtain ⟨hcolumn, hrow, -⟩ := h.position
  simp only [distance, hypot, Grid.step, Grid.point, hcolumn, hrow]
  rw [← Real.sqrt_sq hcell.le, ← Real.sqrt_mul (sq_nonneg _), Real.sqrt_sq hcell.le]
  congr 1
  push_cast
  ring

/-- Along the parents the steps add up to the way that is known. -/
theorem Traced.length (hcell : 0 < grid.cell) (h : Traced grid first s) {j : ℕ} {l : List ℕ}
    (hleads : Leads s.parents j l) (hall : ∀ i ∈ l, s.closed i = true) (a q : Point) :
    ∃ way, s.g j = some way ∧ planningLength (a :: (l.reverse.map grid.point ++ [q])) =
      distance a (grid.point first) + way + distance (grid.point j) q := by
  induction hleads generalizing q with
  | @root j hnone =>
    have hj : j = first := (h.reached j (hall j List.mem_cons_self)).resolve_right (by simp [hnone])
    subst hj
    exact ⟨0, h.root.1, by simp [planningLength]⟩
  | @step j p l hparent hleads ih =>
    obtain ⟨-, dir, hedge, way, hp, hj⟩ := h.parents j p hparent
    obtain ⟨way', hp', hlength⟩ :=
      ih (fun i hi => hall i (List.mem_cons_of_mem _ hi)) (grid.point j)
    obtain rfl := Option.some.inj (hp.symm.trans hp')
    refine ⟨way + grid.step dir, hj, ?_⟩
    rw [distance_edge hcell hedge] at hlength
    have hsnoc := planningLength_snoc (a :: l.reverse.map grid.point) (grid.point j) q
    simp only [List.cons_append] at hsnoc
    simp only [List.reverse_cons, List.map_append, List.map_cons, List.map_nil, List.append_assoc,
      List.cons_append, List.nil_append, hsnoc, hlength]
    ring

end Questix.LabPage.PlanRoute

/-
Questix.LabPage.PlanSearch — what holds of the search of a route at every turn of
its loop.

`search_rule` is the rule of the loop and `foldl_relax` the one of the eight
neighbours. `Traced` is what the parents are for: from every closed cell they lead
back to the first one over edges of the grid, through closed cells only, so that
the way back ends. That the loop itself ends is shown in `PlanShortest`.
-/
import Questix.LabPage.PlanClearance

namespace Questix.LabPage.PlanRoute

open Questix.Lib

/-- The step from a cell to a neighbour that is let through. -/
structure Edge (grid : Grid) (id : ℕ) (dir : ℤ × ℤ) (j : ℕ) : Prop where
  column : 0 ≤ grid.column id + dir.1 ∧ grid.column id + dir.1 < grid.cols
  row : 0 ≤ grid.row id + dir.2 ∧ grid.row id + dir.2 < grid.rows
  cell : j = ((grid.row id + dir.2) * grid.cols + (grid.column id + dir.1)).toNat
  unblocked : ¬ grid.Blocked j
  free : grid.Free (grid.point id) (grid.point j)

/-- The length of a step. -/
noncomputable def Grid.step (grid : Grid) (dir : ℤ × ℤ) : ℝ := grid.cell * hypot dir.1 dir.2

/-- The state with a way to `j` over `id`. -/
noncomputable def improved (grid : Grid) (algorithm : Algorithm) (goal id j : ℕ) (cost : ℝ)
    (s : Search) : Search :=
  { s with
    g := Function.update s.g j (some cost)
    parents := Function.update s.parents j (some id)
    heap := BinaryHeap.push Entry.f s.heap ⟨j, cost + heuristic grid algorithm goal j⟩ }

section relax

variable {grid : Grid} {algorithm : Algorithm} {goal id : ℕ} {s : Search} {dir : ℤ × ℤ}

/-- What a neighbour does: a way to it that is shorter is taken, and otherwise there is none. -/
theorem relax_cases (algorithm : Algorithm) (goal : ℕ) (dir : ℤ × ℤ) {way : ℝ}
    (hway : s.g id = some way) :
    (∃ j, Edge grid id dir j ∧ s.closed j = false ∧
        (∀ old, s.g j = some old → way + grid.step dir + GAIN < old) ∧
        relax grid algorithm goal id s dir =
          improved grid algorithm goal id j (way + grid.step dir) s) ∨
      relax grid algorithm goal id s dir = s ∧ ∀ j, Edge grid id dir j → s.closed j = false →
        ∃ old, s.g j = some old ∧ old ≤ way + grid.step dir + GAIN := by
  unfold relax
  dsimp only
  split
  · rename_i hout
    refine .inr ⟨rfl, fun j hedge _ => ?_⟩
    rcases hout with hout | hout | hout | hout
    · exact absurd hedge.column.1 (not_le.2 hout)
    · exact absurd hedge.column.2 (not_lt.2 hout)
    · exact absurd hedge.row.1 (not_le.2 hout)
    · exact absurd hedge.row.2 (not_lt.2 hout)
  · rename_i hin
    rw [not_or, not_or, not_or, not_lt, not_le, not_lt, not_le] at hin
    obtain ⟨hx0, hx1, hy0, hy1⟩ := hin
    split
    · rename_i hshut
      refine .inr ⟨rfl, fun j hedge hopen => ?_⟩
      rw [← hedge.cell] at hshut
      rcases hshut with hshut | hshut | hshut
      · exact absurd hshut hedge.unblocked
      · rw [hopen] at hshut
        cases hshut
      · exact absurd hedge.free hshut
    · rename_i hopen
      rw [not_or, not_or, not_not, Bool.not_eq_true] at hopen
      obtain ⟨hunblocked, hclosed, hfree⟩ := hopen
      rw [hway]
      dsimp only
      split
      · rename_i hless
        exact .inl ⟨_, ⟨⟨hx0, hx1⟩, ⟨hy0, hy1⟩, rfl, hunblocked, hfree⟩, hclosed, hless, rfl⟩
      · rename_i hmore
        refine .inr ⟨rfl, fun j hedge _ => ?_⟩
        rw [← hedge.cell] at hmore
        push Not at hmore
        exact hmore

theorem foldl_relax {P : Search → Prop}
    (hstep : ∀ s dir, P s → P (relax grid algorithm goal id s dir))
    (l : List (ℤ × ℤ)) (h : P s) : P (l.foldl (relax grid algorithm goal id) s) := by
  induction l generalizing s with
  | nil => exact h
  | cons dir l ih => exact ih (hstep s dir h)

end relax

/-! ## The loop -/

def taken (s : Search) (heap : List Entry) : Search := { s with heap := heap }

/-- The rule of the loop: what is kept by an entry that is passed over and by one that is
expanded holds at the end, whether no entry is left or the next one is the goal. -/
theorem search_rule {grid : Grid} {algorithm : Algorithm} {goal : ℕ} {P : Search → Prop}
    (hpass : ∀ s top heap, P s → BinaryHeap.pop Entry.f s.heap = some (top, heap) →
      s.closed top.id = true → P (taken s heap))
    (hexpand : ∀ s top heap, P s → BinaryHeap.pop Entry.f s.heap = some (top, heap) →
      s.closed top.id = false → top.id ≠ goal →
        P (dirs.foldl (relax grid algorithm goal top.id) (close grid (taken s heap) top.id)))
    {steps : ℕ} {s s' : Search} {reached : Bool} (h : P s)
    (hsearch : search grid algorithm goal steps s = some (s', reached)) :
    reached = false ∧ P s' ∧ s'.heap = [] ∨
      reached = true ∧ ∃ s₀ top heap, P s₀ ∧
        BinaryHeap.pop Entry.f s₀.heap = some (top, heap) ∧ s₀.closed top.id = false ∧
        top.id = goal ∧ s' = close grid (taken s₀ heap) goal := by
  induction steps generalizing s with
  | zero => cases hsearch
  | succ steps ih =>
    unfold search at hsearch
    split at hsearch
    · rename_i hnone
      cases hsearch
      exact .inl ⟨rfl, h, BinaryHeap.pop_eq_none _ hnone⟩
    · rename_i top heap htop
      dsimp only at hsearch
      split at hsearch
      · rename_i hclosed
        exact ih (hpass s top heap h htop hclosed) hsearch
      · rename_i hopen
        rw [Bool.not_eq_true] at hopen
        split at hsearch
        · rename_i hgoal
          cases hsearch
          exact .inr ⟨rfl, s, top, heap, h, htop, hopen, hgoal, by rw [← hgoal]; rfl⟩
        · rename_i hother
          exact ih (hexpand s top heap h htop hopen hother) hsearch

/-! ## The way back -/

/-- The parents lead from `j` through the cells of a list to one that has none. -/
inductive Leads (parents : ℕ → Option ℕ) : ℕ → List ℕ → Prop
  | root {j : ℕ} : parents j = none → Leads parents j [j]
  | step {j p : ℕ} {l : List ℕ} : parents j = some p → Leads parents p l → Leads parents j (j :: l)

theorem Leads.congr {parents parents' : ℕ → Option ℕ} {j : ℕ} {l : List ℕ}
    (h : Leads parents j l) (hsame : ∀ i ∈ l, parents' i = parents i) : Leads parents' j l := by
  induction h with
  | root hnone => exact .root ((hsame _ List.mem_cons_self).trans hnone)
  | step hparent _ ih =>
    exact .step ((hsame _ List.mem_cons_self).trans hparent)
      (ih fun i hi => hsame i (List.mem_cons_of_mem _ hi))

theorem Leads.chain {parents : ℕ → Option ℕ} {j : ℕ} {l : List ℕ} (h : Leads parents j l)
    {steps : ℕ} (hsteps : l.length ≤ steps) : chain parents steps j = some l := by
  induction h generalizing steps with
  | root hnone =>
    cases steps with
    | zero => cases hsteps
    | succ steps =>
      unfold PlanRoute.chain
      rw [hnone]
  | step hparent _ ih =>
    cases steps with
    | zero => cases hsteps
    | succ steps =>
      unfold PlanRoute.chain
      rw [hparent]
      dsimp only
      rw [ih (Nat.le_of_succ_le_succ hsteps)]
      rfl

theorem Leads.head {parents : ℕ → Option ℕ} {j : ℕ} {l : List ℕ} (h : Leads parents j l) :
    l.head? = some j := by
  cases h with
  | root => rfl
  | step => rfl

/-- What the parents and the lengths say, with `first` where the search begins. -/
structure Traced (grid : Grid) (first : ℕ) (s : Search) : Prop where
  root : s.g first = some 0 ∧ s.parents first = none
  parents : ∀ j p, s.parents j = some p → s.closed p = true ∧ ∃ dir, Edge grid p dir j ∧
    ∃ way, s.g p = some way ∧ s.g j = some (way + grid.step dir)
  known : ∀ e ∈ s.heap, e.id = first ∨ (s.parents e.id).isSome
  begun : s.closed first = true ∨ ∀ e ∈ s.heap, e.id = first
  reached : ∀ j, s.closed j = true → j = first ∨ (s.parents j).isSome
  leads : ∀ j, s.closed j = true → ∃ l, Leads s.parents j l ∧ l.length ≤ s.expanded.length ∧
    ∀ i ∈ l, s.closed i = true

section Traced

variable {grid : Grid} {algorithm : Algorithm} {goal first id : ℕ} {s : Search}

theorem traced_start : Traced grid first (start grid algorithm goal first) where
  root := by
    refine ⟨?_, rfl⟩
    show Function.update (fun _ => none) first (some (0 : ℝ)) first = some 0
    exact Function.update_self ..
  parents := nofun
  known := by
    intro e he
    have hmem := (BinaryHeap.push_perm Entry.f [] _).mem_iff.1 he
    exact .inl (congrArg Entry.id (List.mem_singleton.1 hmem))
  begun := by
    refine .inr fun e he => ?_
    have hmem := (BinaryHeap.push_perm Entry.f [] _).mem_iff.1 he
    exact congrArg Entry.id (List.mem_singleton.1 hmem)
  reached := nofun
  leads := nofun

theorem Traced.way (h : Traced grid first s) {j : ℕ} (hj : j = first ∨ (s.parents j).isSome) :
    ∃ way, s.g j = some way := by
  rcases hj with rfl | hj
  · exact ⟨0, h.root.1⟩
  · obtain ⟨p, hp⟩ := Option.isSome_iff_exists.1 hj
    obtain ⟨_, dir, _, way, _, hway⟩ := h.parents j p hp
    exact ⟨way + grid.step dir, hway⟩

theorem Traced.taken (h : Traced grid first s) {top : Entry} {heap : List Entry}
    (htop : BinaryHeap.pop Entry.f s.heap = some (top, heap)) :
    Traced grid first (taken s heap) where
  root := h.root
  parents := h.parents
  known := fun e he => h.known e ((BinaryHeap.pop_perm _ htop).mem_iff.1 (.tail _ he))
  begun := h.begun.imp_right fun hall e he =>
    hall e ((BinaryHeap.pop_perm _ htop).mem_iff.1 (.tail _ he))
  reached := h.reached
  leads := h.leads

theorem Traced.top (h : Traced grid first s) {top : Entry} {heap : List Entry}
    (htop : BinaryHeap.pop Entry.f s.heap = some (top, heap)) :
    (top.id = first ∨ (s.parents top.id).isSome) ∧ (s.closed first = true ∨ top.id = first) := by
  have hmem := (BinaryHeap.pop_perm _ htop).mem_iff.1 List.mem_cons_self
  exact ⟨h.known top hmem, h.begun.imp_right fun hall => hall top hmem⟩

theorem Traced.close (h : Traced grid first s) (hknown : id = first ∨ (s.parents id).isSome)
    (hbegun : s.closed first = true ∨ id = first) :
    Traced grid first (close grid s id) ∧ (close grid s id).closed first = true := by
  have hkeeps : ∀ i, s.closed i = true → (PlanRoute.close grid s id).closed i = true := by
    intro i hi
    show Function.update s.closed id true i = true
    rw [Function.update_apply]
    split
    · rfl
    · exact hi
  have hself : (PlanRoute.close grid s id).closed id = true := Function.update_self ..
  have hold : ∀ i, (PlanRoute.close grid s id).closed i = true → i = id ∨ s.closed i = true := by
    intro i hi
    by_cases heq : i = id
    · exact .inl heq
    · refine .inr ?_
      rw [← hi]
      exact (Function.update_of_ne heq ..).symm
  have hlen : (PlanRoute.close grid s id).expanded.length = s.expanded.length + 1 :=
    List.length_append
  have hfirst : (PlanRoute.close grid s id).closed first = true := by
    rcases hbegun with hbegun | rfl
    · exact hkeeps _ hbegun
    · exact hself
  refine ⟨⟨h.root, fun j p hp => ?_, h.known, .inl hfirst, fun j hj => ?_, fun j hj => ?_⟩, hfirst⟩
  · obtain ⟨hclosed, hedge⟩ := h.parents j p hp
    exact ⟨hkeeps p hclosed, hedge⟩
  · rcases hold j hj with rfl | hj
    · exact hknown
    · exact h.reached j hj
  · by_cases hnew : s.closed j = true
    · obtain ⟨l, hleads, hle, hall⟩ := h.leads j hnew
      exact ⟨l, hleads, by rw [hlen]; omega, fun i hi => hkeeps i (hall i hi)⟩
    · have hj : j = id := (hold j hj).resolve_right hnew
      subst hj
      cases hparent : s.parents j with
      | none =>
        refine ⟨[j], .root hparent, by rw [hlen, List.length_singleton]; omega, fun i hi => ?_⟩
        rw [List.mem_singleton.1 hi]
        exact hself
      | some p =>
        obtain ⟨l, hleads, hle, hall⟩ := h.leads p (h.parents j p hparent).1
        refine ⟨j :: l, .step hparent hleads, ?_, List.forall_mem_cons.2
          ⟨hself, fun i hi => hkeeps i (hall i hi)⟩⟩
        rw [hlen, List.length_cons]
        omega

/-- What is closed and what is known of it when the neighbours of `id` are gone through. -/
structure Expanding (grid : Grid) (first id : ℕ) (way : ℝ) (s : Search) : Prop
    extends Traced grid first s where
  first_closed : s.closed first = true
  id_closed : s.closed id = true
  id_way : s.g id = some way

theorem Expanding.improved {way : ℝ} (h : Expanding grid first id way s) {j : ℕ} {dir : ℤ × ℤ}
    (hedge : Edge grid id dir j) (hopen : s.closed j = false) : Expanding grid first id way
      (improved grid algorithm goal id j (way + grid.step dir) s) := by
  have hne : ∀ {i}, s.closed i = true → i ≠ j := by
    rintro i hi rfl
    rw [hi] at hopen
    cases hopen
  have hg : ∀ {i}, i ≠ j →
      (PlanRoute.improved grid algorithm goal id j (way + grid.step dir) s).g i = s.g i :=
    fun hi => Function.update_of_ne hi ..
  have hparents : ∀ {i}, i ≠ j →
      (PlanRoute.improved grid algorithm goal id j (way + grid.step dir) s).parents i
        = s.parents i :=
    fun hi => Function.update_of_ne hi ..
  have hgj : (PlanRoute.improved grid algorithm goal id j (way + grid.step dir) s).g j =
      some (way + grid.step dir) := Function.update_self ..
  have hpj : (PlanRoute.improved grid algorithm goal id j (way + grid.step dir) s).parents j =
      some id := Function.update_self ..
  have hsome : ∀ {i}, (s.parents i).isSome = true →
      ((PlanRoute.improved grid algorithm goal id j (way + grid.step dir) s).parents i).isSome
        = true := by
    intro i hi
    by_cases heq : i = j
    · rw [heq, hpj]
      rfl
    · rwa [hparents heq]
  refine ⟨⟨?_, ?_, ?_, .inl h.first_closed, ?_, ?_⟩, h.first_closed, h.id_closed, ?_⟩
  · rw [hg (hne h.first_closed), hparents (hne h.first_closed)]
    exact h.root
  · intro i p hp
    by_cases heq : i = j
    · subst heq
      rw [hpj] at hp
      cases hp
      refine ⟨h.id_closed, dir, hedge, way, ?_, hgj⟩
      rw [hg (hne h.id_closed)]
      exact h.id_way
    · rw [hparents heq] at hp
      obtain ⟨hclosed, dir', hedge', way', hp', hi⟩ := h.parents i p hp
      refine ⟨hclosed, dir', hedge', way', ?_, ?_⟩
      · rwa [hg (hne hclosed)]
      · rwa [hg heq]
  · intro e he
    rcases List.mem_cons.1 ((BinaryHeap.push_perm _ _ _).mem_iff.1 he) with rfl | he
    · exact .inr (by rw [hpj]; rfl)
    · exact (h.known e he).imp_right hsome
  · exact fun i hi => (h.reached i hi).imp_right hsome
  · intro i hi
    obtain ⟨l, hleads, hle, hall⟩ := h.leads i hi
    exact ⟨l, hleads.congr fun k hk => hparents (hne (hall k hk)), hle, hall⟩
  · rw [hg (hne h.id_closed)]
    exact h.id_way

theorem Expanding.relax {way : ℝ} (h : Expanding grid first id way s) (dir : ℤ × ℤ) :
    Expanding grid first id way (relax grid algorithm goal id s dir) := by
  rcases relax_cases algorithm goal dir h.id_way with
    ⟨j, hedge, hopen, -, heq⟩ | ⟨heq, -⟩
  · rw [heq]
    exact h.improved hedge hopen
  · rwa [heq]

theorem Traced.expanding (h : Traced grid first s) {top : Entry} {heap : List Entry}
    (htop : BinaryHeap.pop Entry.f s.heap = some (top, heap)) :
    ∃ way, Expanding grid first top.id way
      (PlanRoute.close grid (PlanRoute.taken s heap) top.id) := by
  obtain ⟨hknown, hbegun⟩ := h.top htop
  obtain ⟨way, hway⟩ := h.way hknown
  obtain ⟨htraced, hfirst⟩ := (h.taken htop).close hknown hbegun
  exact ⟨way, htraced, hfirst, Function.update_self .., hway⟩

theorem traced_search {steps : ℕ} {s s' : Search} {reached : Bool} (h : Traced grid first s)
    (hsearch : search grid algorithm goal steps s = some (s', reached)) :
    Traced grid first s' ∧ (reached = true → s'.closed goal = true) := by
  rcases search_rule (P := Traced grid first) (fun s top heap h htop _ => h.taken htop)
    (fun s top heap h htop _ _ => by
      obtain ⟨way, hexp⟩ := h.expanding htop
      exact (foldl_relax (P := Expanding grid first top.id way)
        (fun s dir h => h.relax dir) dirs hexp).toTraced) h hsearch with
    ⟨rfl, h', -⟩ | ⟨-, s₀, top, heap, h₀, htop, -, rfl, rfl⟩
  · exact ⟨h', nofun⟩
  · obtain ⟨way, hexp⟩ := h₀.expanding htop
    exact ⟨hexp.toTraced, fun _ => hexp.id_closed⟩

theorem Traced.path (h : Traced grid first s) {j : ℕ} {l : List ℕ} (hleads : Leads s.parents j l)
    (hall : ∀ i ∈ l, s.closed i = true) : l.getLast? = some first ∧
      l.IsChain fun i p => ∃ dir, Edge grid p dir i := by
  induction hleads with
  | @root j hnone =>
    have hj : j = first := by
      refine (h.reached j (hall j List.mem_cons_self)).resolve_right ?_
      rw [hnone]
      exact Bool.false_ne_true
    rw [hj]
    exact ⟨rfl, .singleton first⟩
  | @step j p l hparent hleads ih =>
    obtain ⟨hlast, hchain⟩ := ih fun i hi => hall i (List.mem_cons_of_mem _ hi)
    obtain ⟨-, dir, hedge, -⟩ := h.parents j p hparent
    cases hleads with
    | root hnone => exact ⟨hlast, .cons_cons ⟨dir, hedge⟩ hchain⟩
    | step hparent' hleads' => exact ⟨hlast, .cons_cons ⟨dir, hedge⟩ hchain⟩

end Traced

end Questix.LabPage.PlanRoute

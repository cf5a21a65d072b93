/-
Questix.LabPage.Regions — the regions of connected selected pixels of an image
(`floodFill` and `connectedRegions` of `vision/basics-math.js`).

Pixels are numbered row by row. The queue of a walk is modelled by the part of
it that has been written, which begins anew with every walk; it has room for as
many pixels as the image has, and a write past its end is `none`.
-/
import Mathlib.Algebra.BigOperators.Group.Finset.Basic
import Mathlib.Algebra.BigOperators.Group.List.Basic
import Mathlib.Algebra.Order.Ring.Nat
import Mathlib.Data.Finset.Card
import Mathlib.Data.List.Perm.Basic
import Mathlib.Data.Rat.Defs
import Mathlib.Logic.Function.Basic
import Mathlib.Logic.Relation
import Mathlib.Tactic.Ring
import Questix.Lib.Dbl

namespace Questix.LabPage.Vision

open Questix.Lib

/-- An image with the pixels that are selected, row by row. -/
structure Mask where
  width : ℕ
  height : ℕ
  pixels : List ℕ
  size : pixels.length = width * height

def Mask.selected (mask : Mask) (index : ℕ) : Bool := mask.pixels.getD index 0 != 0

/-- The pixels left, right, above and below; `none` is the `-1` of the source. -/
def Mask.neighbours (mask : Mask) (index : ℕ) : List (Option ℕ) :=
  let x := index % mask.width
  let y := index / mask.width
  [if 0 < x then some (index - 1) else none,
    if x + 1 < mask.width then some (index + 1) else none,
    if 0 < y then some (index - mask.width) else none,
    if y + 1 < mask.height then some (index + mask.width) else none]

/-- What a walk measures on its way. -/
structure Measures where
  area : ℕ
  sumX : ℕ
  sumY : ℕ
  minX : ℕ
  maxX : ℕ
  minY : ℕ
  maxY : ℕ

def Measures.start (mask : Mask) : Measures := ⟨0, 0, 0, mask.width, 0, mask.height, 0⟩

def Measures.add (mask : Mask) (m : Measures) (index : ℕ) : Measures :=
  let x := index % mask.width
  let y := index / mask.width
  { area := m.area + 1
    sumX := m.sumX + x
    sumY := m.sumY + y
    minX := min m.minX x
    maxX := max m.maxX x
    minY := min m.minY y
    maxY := max m.maxY y }

/-- Area, centre and bounding box. -/
structure Region where
  area : ℕ
  cx : ℚ
  cy : ℚ
  x : ℕ
  y : ℕ
  w : ℕ
  h : ℕ
  deriving DecidableEq

def Measures.region (m : Measures) : Region where
  area := m.area
  cx := m.sumX / m.area
  cy := m.sumY / m.area
  x := m.minX
  y := m.minY
  w := m.maxX - m.minX + 1
  h := m.maxY - m.minY + 1

structure Search where
  queue : List ℕ
  seen : ℕ → Bool

/-- `seen[neighbour] = 1; queue[tail++] = neighbour;` -/
def Search.push (mask : Mask) (s : Search) (neighbour : ℕ) : Option Search :=
  if s.queue.length < mask.pixels.length then
    some { queue := s.queue ++ [neighbour], seen := Function.update s.seen neighbour true }
  else none

def enqueue (mask : Mask) (s : Search) : Option ℕ → Option Search
  | none => some s
  | some neighbour =>
    if !s.seen neighbour && mask.selected neighbour then s.push mask neighbour else some s

/-- The neighbours of one pixel. -/
def expand (mask : Mask) (s : Search) (index : ℕ) : Option Search :=
  (mask.neighbours index).foldlM (enqueue mask) s

/-- `while (head < tail)`. A walk reads every cell of the queue once at most, so
there are no more rounds than pixels. -/
def walk (mask : Mask) : ℕ → ℕ → Search → Measures → Option (Search × Measures)
  | 0, head, s, m => if head < s.queue.length then none else some (s, m)
  | rounds + 1, head, s, m =>
    match s.queue[head]? with
    | none => some (s, m)
    | some index => (expand mask s index).bind fun s' =>
        walk mask rounds (head + 1) s' (m.add mask index)

def floodFill (mask : Mask) (start : ℕ) (seen : ℕ → Bool) : Option ((ℕ → Bool) × Region) :=
  (Search.push mask ⟨[], seen⟩ start).bind fun s =>
    (walk mask mask.pixels.length 0 s (.start mask)).map fun (s', m) => (s'.seen, m.region)

/-- One start. -/
def regionFrom (mask : Mask) (minArea : Dbl) (s : (ℕ → Bool) × List Region) (start : ℕ) :
    Option ((ℕ → Bool) × List Region) :=
  if s.1 start || !mask.selected start then some s
  else (floodFill mask start s.1).map fun (seen, region) =>
    (seen, if minArea ≤ .fin region.area then s.2 ++ [region] else s.2)

def connectedRegions (mask : Mask) (minArea : Dbl) : Option (List Region) :=
  ((List.range mask.pixels.length).foldlM (regionFrom mask minArea) (fun _ => false, [])).map
    fun s => s.2.mergeSort fun a b => decide (b.area ≤ a.area)

/-! ## What a region is -/

abbrev Pixel := ℕ × ℕ

def Mask.pixel (mask : Mask) (index : ℕ) : Pixel := (index % mask.width, index / mask.width)

/-- The pixel is in the image, and it is selected. -/
def Mask.Selects (mask : Mask) (p : Pixel) : Prop :=
  p.1 < mask.width ∧ p.2 < mask.height ∧ mask.selected (p.2 * mask.width + p.1) = true

/-- Two pixels share a side. -/
def Beside (p q : Pixel) : Prop :=
  (p.2 = q.2 ∧ (p.1 + 1 = q.1 ∨ q.1 + 1 = p.1)) ∨ (p.1 = q.1 ∧ (p.2 + 1 = q.2 ∨ q.2 + 1 = p.2))

/-- A way from one pixel to the other over selected pixels that share a side. -/
def Mask.Connected (mask : Mask) : Pixel → Pixel → Prop :=
  Relation.ReflTransGen fun p q => mask.Selects p ∧ mask.Selects q ∧ Beside p q

/-- All selected pixels that are connected to one of them. -/
def Mask.Component (mask : Mask) (c : Finset Pixel) : Prop :=
  ∃ p, mask.Selects p ∧ ∀ q, q ∈ c ↔ mask.Connected p q

/-- The least box around a set, along one axis. -/
def Spanned (coordinate : Pixel → ℕ) (c : Finset Pixel) (first extent : ℕ) : Prop :=
  (∀ p ∈ c, first ≤ coordinate p ∧ coordinate p + 1 ≤ first + extent) ∧
    (∃ p ∈ c, coordinate p = first) ∧ ∃ p ∈ c, coordinate p + 1 = first + extent

/-- The region has the area, the mean position and the bounding box of `c`. -/
structure Region.Describes (region : Region) (c : Finset Pixel) : Prop where
  area : region.area = c.card
  cx : region.cx = ((c.sum fun p => p.1 : ℕ) : ℚ) / c.card
  cy : region.cy = ((c.sum fun p => p.2 : ℕ) : ℚ) / c.card
  columns : Spanned Prod.fst c region.x region.w
  rows : Spanned Prod.snd c region.y region.h

end Questix.LabPage.Vision

/-! `connectedRegions` finds the components of the
selected pixels, each once.

`neighbours_iff` is where rows matter: the neighbours of a pixel by number are
the pixels beside it, so no row wraps into the next. A walk keeps `Sound`: what
it has queued is connected to its start, and every pixel it could still queue is
one of the image and not yet queued, so the queue has room. In the end the queue
is closed, and with that it is the component of the start. -/

namespace Questix.LabPage.Vision

open Questix.Lib

variable {mask : Mask} {i j start : ℕ}

/-! ## Numbers and pixels -/

theorem pixel_injective (mask : Mask) : Function.Injective mask.pixel := by
  intro i j h
  obtain ⟨hx, hy⟩ := Prod.mk.inj h
  rw [← Nat.mod_add_div i mask.width, hx, hy, Nat.mod_add_div]

theorem pixel_number {x : ℕ} (hx : x < mask.width) (y : ℕ) :
    mask.pixel (y * mask.width + x) = (x, y) := by
  have hpos : 0 < mask.width := Nat.zero_lt_of_lt hx
  refine Prod.ext ?_ ?_
  · show (y * mask.width + x) % mask.width = x
    rw [Nat.mul_add_mod', Nat.mod_eq_of_lt hx]
  · show (y * mask.width + x) / mask.width = y
    rw [Nat.add_comm, Nat.add_mul_div_right _ _ hpos, Nat.div_eq_of_lt hx, Nat.zero_add]

theorem number_pixel (mask : Mask) (i : ℕ) :
    (mask.pixel i).2 * mask.width + (mask.pixel i).1 = i := by
  show i / mask.width * mask.width + i % mask.width = i
  rw [Nat.mul_comm, Nat.div_add_mod]

theorem pixel_lt (h : i < mask.width * mask.height) :
    (mask.pixel i).1 < mask.width ∧ (mask.pixel i).2 < mask.height := by
  have hpos : 0 < mask.width := Nat.pos_of_ne_zero fun hzero => by simp [hzero] at h
  exact ⟨Nat.mod_lt i hpos, Nat.div_lt_of_lt_mul h⟩

theorem number_lt {p : Pixel} (hx : p.1 < mask.width) (hy : p.2 < mask.height) :
    p.2 * mask.width + p.1 < mask.width * mask.height := by
  calc p.2 * mask.width + p.1 < p.2 * mask.width + mask.width := Nat.add_lt_add_left hx _
    _ = (p.2 + 1) * mask.width := by ring
    _ ≤ mask.height * mask.width := Nat.mul_le_mul_right _ hy
    _ = mask.width * mask.height := Nat.mul_comm _ _

theorem if_congr_right {α : Type} {p : Prop} [Decidable p] {a b c : α} (h : p → a = b) :
    (if p then a else c) = if p then b else c := by
  split
  · rename_i hp
    exact h hp
  · rfl

theorem neighbours_number {x y : ℕ} (hx : x < mask.width) :
    mask.neighbours (y * mask.width + x) =
      [if 0 < x then some (y * mask.width + (x - 1)) else none,
        if x + 1 < mask.width then some (y * mask.width + (x + 1)) else none,
        if 0 < y then some ((y - 1) * mask.width + x) else none,
        if y + 1 < mask.height then some ((y + 1) * mask.width + x) else none] := by
  obtain ⟨hcolumn, hrow⟩ := Prod.mk.inj (pixel_number hx y)
  unfold Mask.neighbours
  dsimp only at hcolumn hrow ⊢
  rw [hcolumn, hrow]
  have hleft : (if 0 < x then some (y * mask.width + x - 1) else none) =
      if 0 < x then some (y * mask.width + (x - 1)) else none :=
    if_congr_right fun h => by rw [Nat.add_sub_assoc h]
  have habove : (if 0 < y then some (y * mask.width + x - mask.width) else none) =
      if 0 < y then some ((y - 1) * mask.width + x) else none := by
    refine if_congr_right fun h => ?_
    obtain ⟨k, rfl⟩ : ∃ k, y = k + 1 := ⟨y - 1, by omega⟩
    rw [Nat.add_sub_cancel, Nat.add_mul, Nat.one_mul]
    congr 1
    omega
  have hbelow : y * mask.width + x + mask.width = (y + 1) * mask.width + x := by ring
  rw [hleft, habove, hbelow, Nat.add_assoc]

theorem number_eq_iff {x y x' y' : ℕ} (hx : x < mask.width) (hx' : x' < mask.width) :
    y * mask.width + x = y' * mask.width + x' ↔ y = y' ∧ x = x' := by
  constructor
  · intro h
    have hpixel := congrArg mask.pixel h
    rw [pixel_number hx, pixel_number hx'] at hpixel
    exact (Prod.mk.inj hpixel).symm
  · rintro ⟨rfl, rfl⟩
    rfl

theorem neighbours_iff (hi : i < mask.width * mask.height) (hj : j < mask.width * mask.height) :
    some j ∈ mask.neighbours i ↔ Beside (mask.pixel i) (mask.pixel j) := by
  obtain ⟨hx, hy⟩ := pixel_lt hi
  obtain ⟨hx', hy'⟩ := pixel_lt hj
  rw [← number_pixel mask i, ← number_pixel mask j, neighbours_number hx, pixel_number hx,
    pixel_number hx']
  generalize (mask.pixel i).1 = x at *
  generalize (mask.pixel i).2 = y at *
  generalize (mask.pixel j).1 = x' at *
  generalize (mask.pixel j).2 = y' at *
  have hleft : 0 < x → (y' * mask.width + x' = y * mask.width + (x - 1) ↔ y' = y ∧ x' = x - 1) :=
    fun _ => number_eq_iff hx' (by omega)
  have hright : x + 1 < mask.width →
      (y' * mask.width + x' = y * mask.width + (x + 1) ↔ y' = y ∧ x' = x + 1) :=
    fun h => number_eq_iff hx' h
  simp only [List.mem_cons, List.not_mem_nil, or_false, Option.some_eq_ite_none_right,
    Option.some.injEq]
  rw [and_congr_right hleft, and_congr_right hright, number_eq_iff hx' hx, number_eq_iff hx' hx]
  unfold Beside
  dsimp only
  omega

theorem lt_of_selected (h : mask.selected i = true) : i < mask.width * mask.height := by
  rw [← mask.size]
  by_contra hout
  unfold Mask.selected at h
  rw [List.getD_eq_getElem?_getD, List.getElem?_eq_none (not_lt.1 hout)] at h
  exact Bool.false_ne_true h

/-! ## Connected pixels -/

/-- A step of a walk. -/
def Linked (mask : Mask) (i j : ℕ) : Prop :=
  some j ∈ mask.neighbours i ∧ mask.selected i = true ∧ mask.selected j = true

/-- What a walk can reach. -/
def Reach (mask : Mask) : ℕ → ℕ → Prop := Relation.ReflTransGen (Linked mask)

theorem Beside.symm {p q : Pixel} (h : Beside p q) : Beside q p := by
  unfold Beside at h ⊢
  omega

theorem Linked.symm (h : Linked mask i j) : Linked mask j i := by
  obtain ⟨hmem, hi, hj⟩ := h
  have hi' := lt_of_selected hi
  have hj' := lt_of_selected hj
  exact ⟨(neighbours_iff hj' hi').2 ((neighbours_iff hi' hj').1 hmem).symm, hj, hi⟩

theorem Reach.symm (h : Reach mask i j) : Reach mask j i := by
  induction h with
  | refl => exact .refl
  | tail _ hlink ih => exact .head hlink.symm ih

theorem selects_pixel : mask.Selects (mask.pixel i) ↔ mask.selected i = true := by
  unfold Mask.Selects
  rw [number_pixel]
  constructor
  · exact fun h => h.2.2
  · intro h
    obtain ⟨hx, hy⟩ := pixel_lt (lt_of_selected h)
    exact ⟨hx, hy, h⟩

theorem Mask.Selects.number {p : Pixel} (h : mask.Selects p) :
    mask.pixel (p.2 * mask.width + p.1) = p :=
  pixel_number h.1 p.2

theorem linked_iff : Linked mask i j ↔ mask.Selects (mask.pixel i) ∧
    mask.Selects (mask.pixel j) ∧ Beside (mask.pixel i) (mask.pixel j) := by
  rw [selects_pixel, selects_pixel]
  constructor
  · intro ⟨hmem, hi, hj⟩
    exact ⟨hi, hj, (neighbours_iff (lt_of_selected hi) (lt_of_selected hj)).1 hmem⟩
  · intro ⟨hi, hj, hbeside⟩
    exact ⟨(neighbours_iff (lt_of_selected hi) (lt_of_selected hj)).2 hbeside, hi, hj⟩

theorem reach_iff : Reach mask i j ↔ mask.Connected (mask.pixel i) (mask.pixel j) := by
  constructor
  · intro h
    exact h.lift mask.pixel fun _ _ hlink => linked_iff.1 hlink
  · intro h
    have hway : ∀ q, mask.Connected (mask.pixel i) q → ∀ j, mask.pixel j = q → Reach mask i j := by
      intro q hq
      induction hq with
      | refl =>
        intro j hj
        rw [pixel_injective mask hj]
        exact .refl
      | tail _ hstep ih =>
        rintro j rfl
        have hlast := ih _ hstep.1.number
        refine hlast.tail (linked_iff.2 ?_)
        rw [hstep.1.number]
        exact hstep
    exact hway _ h j rfl

theorem connected_selects {p q : Pixel} (hp : mask.Selects p) (h : mask.Connected p q) :
    mask.Selects q := by
  cases h with
  | refl => exact hp
  | tail _ hstep => exact hstep.2.1

theorem reach_selected (hi : mask.selected i = true) (h : Reach mask i j) :
    mask.selected j = true :=
  selects_pixel.1 (connected_selects (selects_pixel.2 hi) (reach_iff.1 h))

/-! ## Walks -/

section Walk

variable {seen : ℕ → Bool} {s : Search}

/-- What a walk from `start` keeps: `seen` is what was seen before it. -/
structure Sound (mask : Mask) (start : ℕ) (seen : ℕ → Bool) (s : Search) : Prop where
  nodup : s.queue.Nodup
  inside : ∀ i ∈ s.queue, mask.selected i = true ∧ Reach mask start i
  seen_iff : ∀ i, s.seen i = true ↔ seen i = true ∨ i ∈ s.queue
  fresh : ∀ i ∈ s.queue, seen i = false

/-- All neighbours of `i` that are selected have been seen. -/
def Expanded (mask : Mask) (s : Search) (i : ℕ) : Prop :=
  ∀ j, some j ∈ mask.neighbours i → mask.selected j = true → s.seen j = true

theorem Sound.room (h : Sound mask start seen s) (hj : mask.selected j = true)
    (hnew : s.seen j = false) : s.queue.length < mask.pixels.length := by
  have hout : j ∉ s.queue := fun hmem =>
    Bool.false_ne_true (hnew.symm.trans ((h.seen_iff j).2 (.inr hmem)))
  have hsubset : (j :: s.queue) ⊆ List.range mask.pixels.length := by
    intro i hi
    rw [List.mem_range, mask.size]
    rcases List.mem_cons.1 hi with rfl | hi
    · exact lt_of_selected hj
    · exact lt_of_selected (h.inside i hi).1
  have hlength := (List.nodup_cons.2 ⟨hout, h.nodup⟩).subperm hsubset |>.length_le
  rw [List.length_cons, List.length_range] at hlength
  exact hlength

theorem Sound.push (h : Sound mask start seen s) (hj : mask.selected j = true)
    (hreach : Reach mask start j) (hnew : s.seen j = false) :
    ∃ s', s.push mask j = some s' ∧ Sound mask start seen s' ∧ s'.queue = s.queue ++ [j] := by
  refine ⟨_, if_pos (h.room hj hnew), ?_, rfl⟩
  have hout : j ∉ s.queue := fun hmem =>
    Bool.false_ne_true (hnew.symm.trans ((h.seen_iff j).2 (.inr hmem)))
  refine ⟨?_, ?_, ?_, ?_⟩
  · exact List.nodup_append.2 ⟨h.nodup, List.nodup_singleton j, fun a ha b hb heq =>
      hout (by rw [← List.mem_singleton.1 hb, ← heq]; exact ha)⟩
  · exact List.forall_mem_append.2 ⟨h.inside, List.forall_mem_singleton.2 ⟨hj, hreach⟩⟩
  · intro i
    dsimp only
    by_cases heq : i = j
    · subst heq
      rw [Function.update_self]
      exact iff_of_true rfl (.inr (List.mem_append_right _ (List.mem_singleton_self i)))
    · rw [Function.update_of_ne heq, h.seen_iff, List.mem_append, List.mem_singleton]
      simp only [heq, or_false]
  · intro i hi
    rcases List.mem_append.1 hi with hi | hi
    · exact h.fresh i hi
    · rw [List.mem_singleton.1 hi]
      refine Bool.eq_false_iff.2 fun hseen => ?_
      exact Bool.false_ne_true (hnew.symm.trans ((h.seen_iff j).2 (.inl hseen)))

theorem Sound.seen_mono {s' : Search} (h : Sound mask start seen s)
    (h' : Sound mask start seen s') (hgrows : s.queue <+: s'.queue) (hi : s.seen i = true) :
    s'.seen i = true :=
  (h'.seen_iff i).2 (((h.seen_iff i).1 hi).imp_right fun hmem => hgrows.subset hmem)

theorem Sound.enqueue (h : Sound mask start seen s) (n : Option ℕ)
    (hn : ∀ j, n = some j → mask.selected j = true → Reach mask start j) :
    ∃ s', Vision.enqueue mask s n = some s' ∧ Sound mask start seen s' ∧ s.queue <+: s'.queue ∧
      ∀ j, n = some j → mask.selected j = true → s'.seen j = true := by
  cases n with
  | none => exact ⟨s, rfl, h, List.prefix_rfl, nofun⟩
  | some j =>
    unfold Vision.enqueue
    dsimp only
    split
    · rename_i hnew
      rw [Bool.and_eq_true, Bool.not_eq_true'] at hnew
      obtain ⟨s', hpush, hsound, hqueue⟩ := h.push hnew.2 (hn j rfl hnew.2) hnew.1
      refine ⟨s', hpush, hsound, hqueue ▸ List.prefix_append _ _, ?_⟩
      rintro j' ⟨⟩ -
      refine (hsound.seen_iff j).2 (.inr ?_)
      rw [hqueue]
      exact List.mem_append_right _ (List.mem_singleton_self j)
    · rename_i hold
      refine ⟨s, rfl, h, List.prefix_rfl, ?_⟩
      rintro j' ⟨⟩ hselected
      by_contra hunseen
      exact hold (by rw [Bool.eq_false_iff.2 hunseen, hselected]; rfl)

theorem Sound.foldlM (l : List (Option ℕ)) (h : Sound mask start seen s)
    (hl : ∀ j, some j ∈ l → mask.selected j = true → Reach mask start j) :
    ∃ s', l.foldlM (Vision.enqueue mask) s = some s' ∧ Sound mask start seen s' ∧
      s.queue <+: s'.queue ∧ ∀ j, some j ∈ l → mask.selected j = true → s'.seen j = true := by
  induction l generalizing s with
  | nil => exact ⟨s, rfl, h, List.prefix_rfl, nofun⟩
  | cons n l ih =>
    obtain ⟨s₁, hone, hsound₁, hgrows₁, hseen₁⟩ :=
      h.enqueue n fun j hj => hl j (hj ▸ List.mem_cons_self)
    obtain ⟨s₂, hrest, hsound₂, hgrows₂, hseen₂⟩ :=
      ih hsound₁ fun j hj => hl j (List.mem_cons_of_mem n hj)
    refine ⟨s₂, ?_, hsound₂, hgrows₁.trans hgrows₂, ?_⟩
    · rw [List.foldlM_cons, hone]
      exact hrest
    · intro j hj hselected
      rcases List.mem_cons.1 hj with heq | hj
      · exact hsound₁.seen_mono hsound₂ hgrows₂ (hseen₁ j heq.symm hselected)
      · exact hseen₂ j hj hselected

theorem Sound.expand (h : Sound mask start seen s) (hi : i ∈ s.queue) :
    ∃ s', Vision.expand mask s i = some s' ∧ Sound mask start seen s' ∧ s.queue <+: s'.queue ∧
      Expanded mask s' i := by
  obtain ⟨hselected, hreach⟩ := h.inside i hi
  exact h.foldlM (mask.neighbours i) fun j hj hselected' =>
    hreach.tail ⟨hj, hselected, hselected'⟩

/-- A walk reads the queue to its end, and measures all that is in it. -/
theorem walk_spec (rounds head : ℕ) (hrounds : rounds + head = mask.pixels.length)
    (h : Sound mask start seen s) (hhead : head ≤ s.queue.length)
    (hexpanded : ∀ i ∈ s.queue.take head, Expanded mask s i) {m₀ : Measures} :
    ∃ s', walk mask rounds head s ((s.queue.take head).foldl (Measures.add mask) m₀) =
        some (s', s'.queue.foldl (Measures.add mask) m₀) ∧
      Sound mask start seen s' ∧ s.queue <+: s'.queue ∧ ∀ i ∈ s'.queue, Expanded mask s' i := by
  have hroom : s.queue.length ≤ mask.pixels.length := by
    have hsubset : s.queue ⊆ List.range mask.pixels.length := fun i hi =>
      List.mem_range.2 (mask.size ▸ lt_of_selected (h.inside i hi).1)
    have hlength := (h.nodup.subperm hsubset).length_le
    rwa [List.length_range] at hlength
  -- the end of the queue
  have hend : head = s.queue.length → ∃ s', some (s, (s.queue.take head).foldl
      (Measures.add mask) m₀) = some (s', s'.queue.foldl (Measures.add mask) m₀) ∧
      Sound mask start seen s' ∧ s.queue <+: s'.queue ∧ ∀ i ∈ s'.queue, Expanded mask s' i := by
    rintro rfl
    rw [List.take_length] at hexpanded ⊢
    exact ⟨s, rfl, h, List.prefix_rfl, hexpanded⟩
  induction rounds generalizing head s with
  | zero =>
    rw [walk, if_neg (by omega)]
    exact hend (by omega)
  | succ rounds ih =>
    rw [walk]
    cases hindex : s.queue[head]? with
    | none =>
      exact hend (le_antisymm hhead (List.getElem?_eq_none_iff.1 hindex))
    | some index =>
      obtain ⟨hlt, hget⟩ := List.getElem?_eq_some_iff.1 hindex
      obtain ⟨s', hstep, hsound, hgrows, hnew⟩ := h.expand (List.mem_of_getElem hget)
      dsimp only
      rw [hstep, Option.bind_some]
      obtain ⟨rest, hrest⟩ := hgrows
      have htake : s'.queue.take (head + 1) = s.queue.take head ++ [index] := by
        rw [← hrest, List.take_append_of_le_length hlt, List.take_succ_eq_append_getElem hlt, hget]
      have hmeasure : ((s.queue.take head).foldl (Measures.add mask) m₀).add mask index =
          (s'.queue.take (head + 1)).foldl (Measures.add mask) m₀ := by
        rw [htake, List.foldl_append, List.foldl_cons, List.foldl_nil]
      rw [hmeasure]
      have hlonger : s.queue <+: s'.queue := ⟨rest, hrest⟩
      have hexpanded' : ∀ i ∈ s'.queue.take (head + 1), Expanded mask s' i := by
        intro i hi
        rw [htake] at hi
        rcases List.mem_append.1 hi with hi | hi
        · intro j hj hselected
          exact h.seen_mono hsound hlonger (hexpanded i hi j hj hselected)
        · rw [List.mem_singleton.1 hi]
          exact hnew
      have hlength' : head + 1 ≤ s'.queue.length := by
        rw [← hrest, List.length_append]
        omega
      have hroom' : s'.queue.length ≤ mask.pixels.length := by
        have hsubset : s'.queue ⊆ List.range mask.pixels.length := fun i hi =>
          List.mem_range.2 (mask.size ▸ lt_of_selected (hsound.inside i hi).1)
        have hle := (hsound.nodup.subperm hsubset).length_le
        rwa [List.length_range] at hle
      obtain ⟨s'', hwalk, hsound'', hgrows'', hall⟩ := ih (head + 1) (by omega) hsound hlength'
        hexpanded' hroom' (by
          intro heq
          rw [heq, List.take_length] at hexpanded' ⊢
          exact ⟨s', rfl, hsound, List.prefix_rfl, hexpanded'⟩)
      exact ⟨s'', hwalk, hsound'', hlonger.trans hgrows'', hall⟩

/-- What has been seen are whole components. -/
def Closed (mask : Mask) (seen : ℕ → Bool) : Prop :=
  ∀ i j, seen i = true → Reach mask i j → seen j = true

theorem Sound.complete (h : Sound mask start seen s) (hstart : start ∈ s.queue)
    (hexpanded : ∀ i ∈ s.queue, Expanded mask s i) (hclosed : Closed mask seen) :
    ∀ i, i ∈ s.queue ↔ Reach mask start i := by
  intro i
  refine ⟨fun hi => (h.inside i hi).2, fun hreach => ?_⟩
  induction hreach with
  | refl => exact hstart
  | tail _ hlink ih =>
    rename_i i j _
    rcases (h.seen_iff j).1 (hexpanded i ih j hlink.1 hlink.2.2) with hold | hnew
    · -- seen before the walk: then `i` would have been seen, too
      have hback := hclosed j i hold (.single hlink.symm)
      exact absurd ((h.fresh i ih).symm.trans hback) Bool.false_ne_true
    · exact hnew

theorem floodFill_spec (hstart : mask.selected start = true) (hnew : seen start = false)
    (hclosed : Closed mask seen) : ∃ (queue : List ℕ) (seen' : ℕ → Bool), floodFill mask start seen =
        some (seen', (queue.foldl (Measures.add mask) (.start mask)).region) ∧
      queue.Nodup ∧ (∀ i, i ∈ queue ↔ Reach mask start i) ∧
      ∀ i, seen' i = true ↔ seen i = true ∨ i ∈ queue := by
  have hempty : Sound mask start seen ⟨[], seen⟩ :=
    ⟨List.nodup_nil, nofun, fun i => by simp, nofun⟩
  obtain ⟨s, hpush, hsound, hqueue⟩ := hempty.push hstart .refl hnew
  obtain ⟨s', hwalk, hsound', hgrows, hexpanded⟩ := @walk_spec mask start seen s
    mask.pixels.length 0 rfl hsound (Nat.zero_le _) (by rw [List.take_zero]; nofun) (.start mask)
  have hmem : start ∈ s'.queue := hgrows.subset (by rw [hqueue]; exact List.mem_singleton_self _)
  refine ⟨s'.queue, s'.seen, ?_, hsound'.nodup, hsound'.complete hmem hexpanded hclosed,
    hsound'.seen_iff⟩
  rw [floodFill, hpush, Option.bind_some]
  rw [List.take_zero, List.foldl_nil] at hwalk
  rw [hwalk]
  rfl

end Walk

/-! ## Measures -/

section Measured

variable {m : Measures}

theorem foldl_area (queue : List ℕ) (m : Measures) :
    (queue.foldl (Measures.add mask) m).area = m.area + queue.length ∧
      (queue.foldl (Measures.add mask) m).sumX =
        m.sumX + (queue.map fun i => (mask.pixel i).1).sum ∧
      (queue.foldl (Measures.add mask) m).sumY =
        m.sumY + (queue.map fun i => (mask.pixel i).2).sum := by
  induction queue generalizing m with
  | nil => exact ⟨rfl, rfl, rfl⟩
  | cons i queue ih =>
    obtain ⟨harea, hx, hy⟩ := ih (m.add mask i)
    rw [List.foldl_cons, harea, hx, hy, List.length_cons, List.map_cons, List.map_cons,
      List.sum_cons, List.sum_cons]
    refine ⟨?_, ?_, ?_⟩
    · show m.area + 1 + queue.length = m.area + (queue.length + 1)
      omega
    · exact Nat.add_assoc _ _ _
    · exact Nat.add_assoc _ _ _

theorem foldl_min {α : Type} (f : α → ℕ) (l : List α) (init : ℕ) :
    l.foldl (fun least a => min least (f a)) init ≤ init ∧
      (∀ a ∈ l, l.foldl (fun least a => min least (f a)) init ≤ f a) ∧
      (l.foldl (fun least a => min least (f a)) init = init ∨
        ∃ a ∈ l, f a = l.foldl (fun least a => min least (f a)) init) := by
  induction l generalizing init with
  | nil => exact ⟨le_rfl, nofun, .inl rfl⟩
  | cons a l ih =>
    obtain ⟨hinit, hall, hone⟩ := ih (min init (f a))
    rw [List.foldl_cons]
    refine ⟨hinit.trans (min_le_left _ _), ?_, ?_⟩
    · intro b hb
      rcases List.mem_cons.1 hb with rfl | hb
      · exact hinit.trans (min_le_right _ _)
      · exact hall b hb
    · rcases hone with heq | ⟨b, hb, heq⟩
      · rcases min_choice init (f a) with hfirst | hsecond
        · exact .inl (heq.trans hfirst)
        · exact .inr ⟨a, List.mem_cons_self, (heq.trans hsecond).symm⟩
      · exact .inr ⟨b, List.mem_cons_of_mem a hb, heq⟩

theorem foldl_max {α : Type} (f : α → ℕ) (l : List α) (init : ℕ) :
    init ≤ l.foldl (fun most a => max most (f a)) init ∧
      (∀ a ∈ l, f a ≤ l.foldl (fun most a => max most (f a)) init) ∧
      (l.foldl (fun most a => max most (f a)) init = init ∨
        ∃ a ∈ l, f a = l.foldl (fun most a => max most (f a)) init) := by
  induction l generalizing init with
  | nil => exact ⟨le_rfl, nofun, .inl rfl⟩
  | cons a l ih =>
    obtain ⟨hinit, hall, hone⟩ := ih (max init (f a))
    rw [List.foldl_cons]
    refine ⟨(le_max_left _ _).trans hinit, ?_, ?_⟩
    · intro b hb
      rcases List.mem_cons.1 hb with rfl | hb
      · exact (le_max_right _ _).trans hinit
      · exact hall b hb
    · rcases hone with heq | ⟨b, hb, heq⟩
      · rcases max_choice init (f a) with hfirst | hsecond
        · exact .inl (heq.trans hfirst)
        · exact .inr ⟨a, List.mem_cons_self, (heq.trans hsecond).symm⟩
      · exact .inr ⟨b, List.mem_cons_of_mem a hb, heq⟩

theorem foldl_bounds (queue : List ℕ) (m : Measures) :
    (queue.foldl (Measures.add mask) m).minX =
        queue.foldl (fun least i => min least (mask.pixel i).1) m.minX ∧
      (queue.foldl (Measures.add mask) m).maxX =
        queue.foldl (fun most i => max most (mask.pixel i).1) m.maxX ∧
      (queue.foldl (Measures.add mask) m).minY =
        queue.foldl (fun least i => min least (mask.pixel i).2) m.minY ∧
      (queue.foldl (Measures.add mask) m).maxY =
        queue.foldl (fun most i => max most (mask.pixel i).2) m.maxY := by
  induction queue generalizing m with
  | nil => exact ⟨rfl, rfl, rfl, rfl⟩
  | cons i queue ih => exact ih (m.add mask i)

/-- The pixels of a queue. -/
def pixelsOf (mask : Mask) (queue : List ℕ) : Finset Pixel := (queue.map mask.pixel).toFinset

theorem mem_pixelsOf {queue : List ℕ} {p : Pixel} :
    p ∈ pixelsOf mask queue ↔ ∃ i ∈ queue, mask.pixel i = p := by
  rw [pixelsOf, List.mem_toFinset, List.mem_map]

/-- The least and the greatest coordinate span the set. -/
theorem spanned_of {queue : List ℕ} (coordinate : Pixel → ℕ) {limit : ℕ} (hne : queue ≠ [])
    (hlimit : ∀ i ∈ queue, coordinate (mask.pixel i) < limit) :
    Spanned coordinate (pixelsOf mask queue)
      (queue.foldl (fun least i => min least (coordinate (mask.pixel i))) limit)
      (queue.foldl (fun most i => max most (coordinate (mask.pixel i))) 0 -
        queue.foldl (fun least i => min least (coordinate (mask.pixel i))) limit + 1) := by
  obtain ⟨first, hfirst⟩ := List.exists_mem_of_ne_nil queue hne
  obtain ⟨-, hmin, hleast⟩ := foldl_min (fun i => coordinate (mask.pixel i)) queue limit
  obtain ⟨-, hmax, hmost⟩ := foldl_max (fun i => coordinate (mask.pixel i)) queue 0
  generalize queue.foldl (fun least i => min least (coordinate (mask.pixel i))) limit = low at *
  generalize queue.foldl (fun most i => max most (coordinate (mask.pixel i))) 0 = high at *
  have hlow := hmin first hfirst
  have hhigh := hmax first hfirst
  refine ⟨?_, ?_, ?_⟩
  · intro p hp
    obtain ⟨i, hi, rfl⟩ := mem_pixelsOf.1 hp
    have := hmin i hi
    have := hmax i hi
    omega
  · rcases hleast with heq | ⟨i, hi, heq⟩
    · exact absurd (hlimit first hfirst) (by omega)
    · exact ⟨mask.pixel i, mem_pixelsOf.2 ⟨i, hi, rfl⟩, heq⟩
  · rcases hmost with heq | ⟨i, hi, heq⟩
    · exact ⟨mask.pixel first, mem_pixelsOf.2 ⟨first, hfirst, rfl⟩, by omega⟩
    · exact ⟨mask.pixel i, mem_pixelsOf.2 ⟨i, hi, rfl⟩, by omega⟩

theorem sum_pixelsOf {queue : List ℕ} (hnodup : queue.Nodup) (coordinate : Pixel → ℕ) :
    (pixelsOf mask queue).sum coordinate = (queue.map fun i => coordinate (mask.pixel i)).sum := by
  rw [pixelsOf, List.sum_toFinset _ (hnodup.map (pixel_injective mask)), List.map_map]
  rfl

theorem card_pixelsOf {queue : List ℕ} (hnodup : queue.Nodup) :
    (pixelsOf mask queue).card = queue.length := by
  rw [pixelsOf, List.toFinset_card_of_nodup (hnodup.map (pixel_injective mask)), List.length_map]

theorem describes_of {queue : List ℕ} (hne : queue ≠ []) (hnodup : queue.Nodup)
    (hselected : ∀ i ∈ queue, mask.selected i = true) :
    (queue.foldl (Measures.add mask) (.start mask)).region.Describes (pixelsOf mask queue) := by
  obtain ⟨harea, hsumX, hsumY⟩ := @foldl_area mask queue (.start mask)
  obtain ⟨hminX, hmaxX, hminY, hmaxY⟩ := @foldl_bounds mask queue (.start mask)
  have hpixel := fun i hi => pixel_lt (lt_of_selected (hselected i hi))
  have hcount : (queue.foldl (Measures.add mask) (.start mask)).area = queue.length :=
    harea.trans (Nat.zero_add _)
  constructor
  · exact hcount.trans (card_pixelsOf hnodup).symm
  · rw [card_pixelsOf hnodup, sum_pixelsOf hnodup, Measures.region]
    dsimp only
    rw [hcount, hsumX, Measures.start, Nat.zero_add]
  · rw [card_pixelsOf hnodup, sum_pixelsOf hnodup, Measures.region]
    dsimp only
    rw [hcount, hsumY, Measures.start, Nat.zero_add]
  · have hspan := spanned_of Prod.fst hne fun i hi => (hpixel i hi).1
    rw [Measures.region]
    dsimp only
    rw [hminX, hmaxX]
    exact hspan
  · have hspan := spanned_of Prod.snd hne fun i hi => (hpixel i hi).2
    rw [Measures.region]
    dsimp only
    rw [hminY, hmaxY]
    exact hspan

end Measured

/-! ## All regions -/

section Regions

variable {minArea : Dbl} {k : ℕ}

/-- The first `k` starts: what has been seen are the components found so far. -/
structure Found (mask : Mask) (minArea : Dbl) (k : ℕ) (s : (ℕ → Bool) × List Region)
    (found : List (Finset Pixel)) : Prop where
  nodup : found.Nodup
  component : ∀ c ∈ found, mask.Component c
  seen_iff : ∀ i, s.1 i = true ↔ ∃ c ∈ found, mask.pixel i ∈ c
  passed : ∀ i < k, mask.selected i = true → s.1 i = true
  regions : List.Forall₂ Region.Describes s.2
    (found.filter fun c => decide (minArea ≤ .fin c.card))

theorem Found.closed {s : (ℕ → Bool) × List Region} {found : List (Finset Pixel)}
    (h : Found mask minArea k s found) : Closed mask s.1 := by
  intro i j hi hreach
  obtain ⟨c, hc, hmem⟩ := (h.seen_iff i).1 hi
  obtain ⟨p, -, hall⟩ := h.component c hc
  exact (h.seen_iff j).2 ⟨c, hc, (hall _).2 (((hall _).1 hmem).trans (reach_iff.1 hreach))⟩

theorem component_pixelsOf {queue : List ℕ} (hstart : mask.selected start = true)
    (hqueue : ∀ i, i ∈ queue ↔ Reach mask start i) : mask.Component (pixelsOf mask queue) := by
  refine ⟨mask.pixel start, selects_pixel.2 hstart, fun q => ?_⟩
  rw [mem_pixelsOf]
  constructor
  · rintro ⟨i, hi, rfl⟩
    exact reach_iff.1 ((hqueue i).1 hi)
  · intro hconnected
    have hnumber := (connected_selects (selects_pixel.2 hstart) hconnected).number
    refine ⟨_, (hqueue _).2 (reach_iff.2 ?_), hnumber⟩
    rw [hnumber]
    exact hconnected

/-- One more start finds nothing new, or one component. -/
theorem Found.step {s : (ℕ → Bool) × List Region} {found : List (Finset Pixel)}
    (h : Found mask minArea k s found) : ∃ s' found', regionFrom mask minArea s k = some s' ∧
      Found mask minArea (k + 1) s' found' := by
  unfold regionFrom
  split
  · rename_i hskip
    refine ⟨s, found, rfl, h.nodup, h.component, h.seen_iff, ?_, h.regions⟩
    intro i hi hselected
    rcases Nat.lt_succ_iff_lt_or_eq.1 hi with hi | rfl
    · exact h.passed i hi hselected
    · rw [hselected, Bool.not_true, Bool.or_false] at hskip
      exact hskip
  · rename_i hstart
    rw [Bool.or_eq_true, not_or, Bool.not_eq_true, Bool.not_eq_true', Bool.not_eq_false] at hstart
    obtain ⟨queue, seen', hfill, hnodup, hqueue, hseen'⟩ :=
      floodFill_spec hstart.2 hstart.1 h.closed
    have hmem : k ∈ queue := (hqueue k).2 .refl
    have hselected : ∀ i ∈ queue, mask.selected i = true := fun i hi =>
      reach_selected hstart.2 ((hqueue i).1 hi)
    have hdescribes := describes_of (List.ne_nil_of_mem hmem) hnodup hselected
    rw [hfill, Option.map_some]
    refine ⟨_, found ++ [pixelsOf mask queue], rfl, ?_, ?_, ?_, ?_, ?_⟩
    · refine List.nodup_append.2 ⟨h.nodup, List.nodup_singleton _, fun c hc c' hc' heq => ?_⟩
      rw [List.mem_singleton.1 hc'] at heq
      -- the new component holds a pixel that had not been seen
      refine Bool.false_ne_true (hstart.1.symm.trans ((h.seen_iff k).2 ⟨c, hc, ?_⟩))
      rw [heq]
      exact mem_pixelsOf.2 ⟨k, hmem, rfl⟩
    · exact List.forall_mem_append.2 ⟨h.component, List.forall_mem_singleton.2 (component_pixelsOf hstart.2 hqueue)⟩
    · intro i
      dsimp only
      rw [hseen', h.seen_iff]
      constructor
      · rintro (⟨c, hc, hi⟩ | hi)
        · exact ⟨c, List.mem_append_left _ hc, hi⟩
        · exact ⟨_, List.mem_append_right _ (List.mem_singleton_self _),
            mem_pixelsOf.2 ⟨i, hi, rfl⟩⟩
      · rintro ⟨c, hc, hi⟩
        rcases List.mem_append.1 hc with hc | hc
        · exact .inl ⟨c, hc, hi⟩
        · rw [List.mem_singleton.1 hc] at hi
          obtain ⟨i', hi', heq⟩ := mem_pixelsOf.1 hi
          rw [← pixel_injective mask heq]
          exact .inr hi'
    · intro i hi hselected'
      dsimp only
      rw [hseen']
      rcases Nat.lt_succ_iff_lt_or_eq.1 hi with hi | rfl
      · exact .inl (h.passed i hi hselected')
      · exact .inr hmem
    · dsimp only
      rw [List.filter_append, List.filter_singleton, ← hdescribes.area]
      by_cases hlarge : minArea ≤ .fin
          ((queue.foldl (Measures.add mask) (.start mask)).region.area : ℚ)
      · rw [if_pos hlarge, decide_eq_true hlarge, cond_true]
        exact List.rel_append h.regions (.cons hdescribes .nil)
      · rw [if_neg hlarge, decide_eq_false hlarge, cond_false, List.append_nil]
        exact h.regions

theorem Found.initial : Found mask minArea 0 (fun _ => false, []) [] where
  nodup := List.nodup_nil
  component := nofun
  seen_iff := fun i => by simp
  passed := nofun
  regions := .nil

theorem found_run (k : ℕ) : ∃ s found,
    (List.range k).foldlM (regionFrom mask minArea) (fun _ => false, []) = some s ∧
      Found mask minArea k s found := by
  induction k with
  | zero => exact ⟨_, [], rfl, Found.initial⟩
  | succ k ih =>
    obtain ⟨s, found, hrun, hfound⟩ := ih
    obtain ⟨s', found', hstep, hfound'⟩ := hfound.step
    refine ⟨s', found', ?_, hfound'⟩
    rw [List.range_succ, List.foldlM_append, hrun]
    show (regionFrom mask minArea s k).bind some = some s'
    rw [hstep]
    rfl

theorem Found.all {s : (ℕ → Bool) × List Region} {found : List (Finset Pixel)}
    (h : Found mask minArea mask.pixels.length s found) {c : Finset Pixel}
    (hc : mask.Component c) : c ∈ found := by
  obtain ⟨p, hp, hall⟩ := hc
  have hlt : p.2 * mask.width + p.1 < mask.pixels.length := by
    rw [mask.size]
    exact number_lt hp.1 hp.2.1
  have hseen := h.passed _ hlt hp.2.2
  obtain ⟨c', hc', hmem⟩ := (h.seen_iff _).1 hseen
  rw [hp.number] at hmem
  obtain ⟨p', hp', hall'⟩ := h.component c' hc'
  have hway := (hall' p).1 hmem
  have hback : mask.Connected p p' := by
    rw [← hp.number, ← hp'.number, ← reach_iff]
    refine Reach.symm (reach_iff.2 ?_)
    rw [hp.number, hp'.number]
    exact hway
  have hsame : c' = c := by
    ext q
    rw [hall, hall']
    exact ⟨fun hq => hback.trans hq, fun hq => hway.trans hq⟩
  rw [← hsame]
  exact hc'

/-- One entry for each component that is large enough, the largest first; and no
write past the end of the queue. -/
theorem connected_regions (mask : Mask) (minArea : Dbl) :
    ∃ regions, connectedRegions mask minArea = some regions ∧
      (regions.Pairwise fun a b => b.area ≤ a.area) ∧
      ∃ components : List (Finset Pixel), components.Nodup ∧
        (∀ c, c ∈ components ↔ mask.Component c ∧ minArea ≤ .fin c.card) ∧
        List.Forall₂ Region.Describes regions components := by
  obtain ⟨s, found, hrun, hfound⟩ := @found_run mask minArea mask.pixels.length
  have hsorted : (s.2.mergeSort fun a b => decide (b.area ≤ a.area)).Pairwise
      fun a b => decide (b.area ≤ a.area) = true := by
    refine List.pairwise_mergeSort ?_ ?_ s.2
    · intro a b c hab hbc
      rw [decide_eq_true_iff] at hab hbc ⊢
      exact hbc.trans hab
    · intro a b
      rw [Bool.or_eq_true, decide_eq_true_iff, decide_eq_true_iff]
      exact le_total b.area a.area
  obtain ⟨components, hcomponents, hperm⟩ :=
    List.perm_comp_forall₂ (List.mergeSort_perm s.2 _) hfound.regions
  refine ⟨_, ?_, hsorted.imp of_decide_eq_true, components, ?_, ?_, hcomponents⟩
  · rw [connectedRegions, hrun]
    rfl
  · exact (hperm.nodup_iff).2 (hfound.nodup.filter _)
  · intro c
    rw [hperm.mem_iff, List.mem_filter, decide_eq_true_iff]
    exact and_congr_left fun _ => ⟨hfound.component c, hfound.all⟩

end Regions

/-- The last pixel of a row and the first of the next do not touch. -/
example : (floodFill ⟨3, 2, [0, 0, 1, 1, 0, 1], rfl⟩ 2 fun _ => false).map
    (fun s => (s.2.area, s.2.x, s.2.y, s.2.w, s.2.h)) = some (2, 2, 0, 1, 2) := by
  decide

end Questix.LabPage.Vision

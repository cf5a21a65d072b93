/-
Questix.Lib.Piecewise — a curve that joins the points of a table by straight lines.

The table has a value for each of finitely many nodes. Where the values grow with
the nodes the curve grows (`onCurve_lt`): it takes each value at one place only
(`onCurve_unique`), and a larger one further on (`onCurve_gt`).
-/
import Mathlib.Algebra.Order.Field.Basic
import Mathlib.Data.Finset.Sort
import Mathlib.Order.Monotone.Defs
import Mathlib.Tactic.Linarith
import Mathlib.Tactic.FieldSimp
import Mathlib.Tactic.Ring

namespace Questix.Lib.Piecewise

/-- Two nodes with none in between. -/
structure Neighbours {K : Type*} [LinearOrder K] (nodes : Set K) (a b : K) : Prop where
  left : a ∈ nodes
  right : b ∈ nodes
  lt : a < b
  between : ∀ c ∈ nodes, c ≤ a ∨ b ≤ c

theorem neighbours_cases {K : Type*} [LinearOrder K] {nodes : Set K} {a b a' b' : K}
    (h : Neighbours nodes a b) (h' : Neighbours nodes a' b') :
    (a = a' ∧ b = b') ∨ b ≤ a' ∨ b' ≤ a := by
  rcases h.between a' h'.left with hle | hle
  · rcases h'.between a h.left with hle' | hle'
    · obtain rfl := le_antisymm hle' hle
      left
      refine ⟨rfl, ?_⟩
      rcases h.between b' h'.right with hb | hb
      · exact absurd (h'.lt.trans_le hb) (lt_irrefl _)
      · rcases h'.between b h.right with hb' | hb'
        · exact absurd (h.lt.trans_le hb') (lt_irrefl _)
        · exact le_antisymm hb hb'
    · exact .inr (.inr hle')
  · exact .inr (.inl hle)

theorem neighbours_sort {K : Type*} [LinearOrder K] {s : Finset K} {i : ℕ} {a b : K}
    (ha : s.sort[i]? = some a) (hb : s.sort[i + 1]? = some b) : Neighbours (s : Set K) a b := by
  obtain ⟨hi, rfl⟩ := List.getElem?_eq_some_iff.1 ha
  obtain ⟨hi', rfl⟩ := List.getElem?_eq_some_iff.1 hb
  have hmono := (Finset.sortedLT_sort s).strictMono_get
  have hmem {c : K} : c ∈ s.sort (· ≤ ·) ↔ c ∈ s := Finset.mem_sort (· ≤ ·)
  refine ⟨hmem.1 (List.getElem_mem hi), hmem.1 (List.getElem_mem hi'), ?_, fun c hc => ?_⟩
  · exact hmono (show (⟨i, hi⟩ : Fin s.sort.length) < ⟨i + 1, hi'⟩ from Nat.lt_succ_self i)
  · obtain ⟨j, hj, rfl⟩ := List.getElem_of_mem (hmem.2 hc)
    rcases Nat.lt_or_ge i j with hlt | hge
    · exact .inr (hmono.monotone (show (⟨i + 1, hi'⟩ : Fin s.sort.length) ≤ ⟨j, hj⟩ from hlt))
    · exact .inl (hmono.monotone (show (⟨j, hj⟩ : Fin s.sort.length) ≤ ⟨i, hi⟩ from hge))

variable {K : Type*} [Field K]

/-- The line through two points of the table. -/
def line (value : K → K) (a b x : K) : K := value a + (value b - value a) * (x - a) / (b - a)

theorem line_left (value : K → K) (a b : K) : line value a b a = value a := by
  unfold line
  rw [sub_self, mul_zero, zero_div, add_zero]

variable [LinearOrder K]

/-- The curve passes through `(x, y)`. -/
def OnCurve (nodes : Set K) (value : K → K) (x y : K) : Prop :=
  ∃ a b, Neighbours nodes a b ∧ a ≤ x ∧ x ≤ b ∧ y = line value a b x

variable {nodes : Set K} {value : K → K} {a b x y x' y' : K}

variable [IsStrictOrderedRing K]

theorem line_right (h : a < b) : line value a b b = value b := by
  unfold line
  rw [mul_div_assoc, div_self (sub_pos.2 h).ne', mul_one, add_sub_cancel]

theorem line_strictMono (h : a < b) (hvalue : value a < value b) :
    StrictMono (line value a b) := by
  intro x x' hx
  have hpos : 0 < b - a := sub_pos.2 h
  have hslope : 0 < value b - value a := sub_pos.2 hvalue
  unfold line
  have hmul := mul_lt_mul_of_pos_left (sub_lt_sub_right hx a) hslope
  linarith [div_lt_div_of_pos_right hmul hpos]

theorem onCurve_lt (hmono : StrictMonoOn value nodes) (h : OnCurve nodes value x y)
    (h' : OnCurve nodes value x' y') (hx : x < x') : y < y' := by
  obtain ⟨a, b, hab, hax, hxb, rfl⟩ := h
  obtain ⟨a', b', hab', hax', hxb', rfl⟩ := h'
  have hline := line_strictMono hab.lt (hmono hab.left hab.right hab.lt)
  have hline' := line_strictMono hab'.lt (hmono hab'.left hab'.right hab'.lt)
  rcases neighbours_cases hab hab' with ⟨rfl, rfl⟩ | hle | hle
  · exact hline hx
  · -- over the end of the one piece and the beginning of the other
    have hend : line value a b x ≤ value b := (hline.monotone hxb).trans_eq (line_right hab.lt)
    have hbegin : value a' ≤ line value a' b' x' :=
      (line_left ..).symm.trans_le (hline'.monotone hax')
    have hnodes : value b ≤ value a' := hmono.monotoneOn hab.right hab'.left hle
    rcases hxb.lt_or_eq with hlt | rfl
    · exact ((hline hlt).trans_eq (line_right hab.lt)).trans_le (hnodes.trans hbegin)
    · rcases hax'.lt_or_eq with hlt | rfl
      · exact (hend.trans hnodes).trans_lt ((line_left ..).symm.trans_lt (hline' hlt))
      · exact hend.trans_lt ((hmono hab.right hab'.left hx).trans_le hbegin)
  · exact absurd hx (not_lt.2 (hxb'.trans (hle.trans hax)))

theorem onCurve_unique (hmono : StrictMonoOn value nodes) (h : OnCurve nodes value x y)
    (h' : OnCurve nodes value x' y) : x = x' := by
  rcases lt_trichotomy x x' with hlt | heq | hgt
  · exact absurd (onCurve_lt hmono h h' hlt) (lt_irrefl y)
  · exact heq
  · exact absurd (onCurve_lt hmono h' h hgt) (lt_irrefl y)

/-- Where a value between those of two neighbours is taken. -/
def place (value : K → K) (a b y : K) : K := a + (b - a) * (y - value a) / (value b - value a)

theorem onCurve_place (h : Neighbours nodes a b) (hvalue : value a < value b) (hy : value a ≤ y)
    (hy' : y ≤ value b) :
    OnCurve nodes value (place value a b y) y ∧ a ≤ place value a b y ∧ place value a b y ≤ b := by
  have hwide : 0 < b - a := sub_pos.2 h.lt
  have hslope : 0 < value b - value a := sub_pos.2 hvalue
  have hle : a ≤ place value a b y := by
    have hpart : 0 ≤ (b - a) * (y - value a) / (value b - value a) :=
      div_nonneg (mul_nonneg hwide.le (sub_nonneg.2 hy)) hslope.le
    unfold place
    linarith
  have hge : place value a b y ≤ b := by
    have hpart : (b - a) * (y - value a) / (value b - value a) ≤ b - a := by
      rw [div_le_iff₀ hslope]
      exact mul_le_mul_of_nonneg_left (sub_le_sub_right hy' _) hwide.le
    unfold place
    linarith
  refine ⟨⟨a, b, h, hle, hge, ?_⟩, hle, hge⟩
  have hne := hwide.ne'
  have hne' := hslope.ne'
  unfold line place
  rw [add_sub_cancel_left]
  field_simp
  ring

theorem onCurve_eq (h : OnCurve nodes value x y) (h' : OnCurve nodes value x y') : y = y' := by
  obtain ⟨a, b, hab, hax, hxb, rfl⟩ := h
  obtain ⟨a', b', hab', hax', hxb', rfl⟩ := h'
  rcases neighbours_cases hab hab' with ⟨rfl, rfl⟩ | hle | hle
  · rfl
  · obtain rfl := le_antisymm hxb (hle.trans hax')
    obtain rfl := le_antisymm hle hax'
    rw [line_right hab.lt, line_left]
  · obtain rfl := le_antisymm hxb' (hle.trans hax)
    obtain rfl := le_antisymm hle hax
    rw [line_right hab'.lt, line_left]

theorem onCurve_gt (hmono : StrictMonoOn value nodes) (h : OnCurve nodes value x y)
    (h' : OnCurve nodes value x' y') (hy : y < y') : x < x' := by
  rcases lt_trichotomy x x' with hlt | rfl | hgt
  · exact hlt
  · exact absurd (onCurve_eq h h') hy.ne
  · exact absurd (onCurve_lt hmono h' h hgt) hy.not_gt

end Questix.Lib.Piecewise

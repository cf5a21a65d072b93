/-
Questix.Lib.GaussJordan — solving linear equations by elimination with row
pivots, over the reals, with a bound below which a pivot counts as zero.

Of a system that stretches every vector by `low` at least, no pivot is smaller
than `low / √n` (`exists_pivot`): what remains of the matrix applied to a vector
that the finished rows send to 0 is as long as the whole matrix applied to it
(`Reduced.norm`). So the elimination comes to its end, and its result solves the
equations (`solve_spec`).
-/
import Mathlib.Algebra.BigOperators.Field
import Mathlib.Algebra.BigOperators.Fin
import Mathlib.Algebra.Order.BigOperators.Ring.Finset
import Mathlib.Data.Real.Basic
import Mathlib.Tactic.FieldSimp
import Mathlib.Tactic.Linarith
import Questix.Lib.Numerals

namespace Questix.Lib.GaussJordan

variable {n : ℕ}

abbrev Rows (n : ℕ) := Fin n → Fin (n + 1) → ℝ

noncomputable section

/-- The row with the largest entry of column `k`, from row `k` on. -/
def pivotRow (m : Rows n) (k : Fin n) : Fin n :=
  ((List.finRange n).filter fun i => k < i).foldl
    (fun j i => if |m j k.castSucc| < |m i k.castSucc| then i else j) k

/-- One column of the elimination. -/
def eliminate (tiny : ℝ) (rows : Rows n) (k : Fin n) : Option (Rows n) :=
  let m : Rows n := fun i => rows (Equiv.swap k (pivotRow rows k) i)
  let v := m k k.castSucc
  if |v| < tiny then none
  else
    let pivot : Fin (n + 1) → ℝ := fun t => if k.castSucc ≤ t then m k t / v else m k t
    some fun i t =>
      if i = k then pivot t
      else if k.castSucc ≤ t then m i t - m i k.castSucc * pivot t else m i t

def augmented (a : Fin n → Fin n → ℝ) (b : Fin n → ℝ) : Rows n := fun i => Fin.snoc (a i) (b i)

def solve (tiny : ℝ) (a : Fin n → Fin n → ℝ) (b : Fin n → ℝ) : Option (Fin n → ℝ) :=
  ((List.finRange n).foldlM (eliminate tiny) (augmented a b)).map fun m i => m i (Fin.last n)

end

def dot (u v : Fin (n + 1) → ℝ) : ℝ := ∑ t, u t * v t

/-- After `k` columns: they are those of the unit matrix, and the other rows are as long
as the system on what the finished rows send to 0. -/
structure Reduced (a : Rows n) (k : ℕ) (m : Rows n) : Prop where
  unit : ∀ (i j : Fin n), j.val < k → m i j.castSucc = if i = j then 1 else 0
  norm : ∀ y : Fin (n + 1) → ℝ, (∀ i : Fin n, i.val < k → dot (m i) y = 0) →
    ∑ i, dot (a i) y ^ 2 = ∑ i : Fin n, if k ≤ i.val then dot (m i) y ^ 2 else 0

section Reduction

variable {a m : Rows n} {tiny low : ℝ}

theorem reduced_zero (a : Rows n) : Reduced a 0 a where
  unit := fun i j hj => absurd hj (Nat.not_lt_zero _)
  norm := fun y _ => by simp

/-! ## Pivots -/

/-- The vector that the finished rows send to 0, with 1 in place `k`. -/
def kernelVector (m : Rows n) (k : Fin n) : Fin (n + 1) → ℝ :=
  Fin.snoc (fun j : Fin n => if j = k then 1 else if j < k then -m j k.castSucc else 0) 0

theorem dot_snoc (u : Fin (n + 1) → ℝ) (x : Fin n → ℝ) (r : ℝ) :
    dot u (Fin.snoc x r) = (∑ j : Fin n, u j.castSucc * x j) + u (Fin.last n) * r := by
  unfold dot
  rw [Fin.sum_univ_castSucc]
  simp

theorem dot_kernelVector {k : Fin n} (h : Reduced a k.val m) (i : Fin n) :
    dot (m i) (kernelVector m k) = if k ≤ i then m i k.castSucc else 0 := by
  unfold kernelVector
  rw [dot_snoc, mul_zero, add_zero]
  have hterm : ∀ j : Fin n,
      m i j.castSucc * (if j = k then 1 else if j < k then -m j k.castSucc else 0) =
        (if j = k then m i k.castSucc else 0) +
          if j = i then if i < k then -m i k.castSucc else 0 else 0 := by
    intro j
    by_cases hjk : j = k
    · subst hjk
      by_cases hji : j = i
      · subst hji
        simp
      · simp [hji]
    · by_cases hlt : j < k
      · rw [h.unit i j hlt, if_neg hjk, if_pos hlt, if_neg hjk]
        by_cases hji : j = i
        · subst hji
          simp [hlt]
        · simp [hji, Ne.symm hji]
      · rw [if_neg hjk, if_neg hlt, if_neg hjk]
        by_cases hji : j = i
        · subst hji
          simp [hlt]
        · simp [hji]
  rw [Finset.sum_congr rfl fun j _ => hterm j, Finset.sum_add_distrib, Finset.sum_ite_eq',
    Finset.sum_ite_eq', if_pos (Finset.mem_univ _), if_pos (Finset.mem_univ _)]
  by_cases hki : k ≤ i
  · rw [if_pos hki, if_neg (not_lt.2 hki), add_zero]
  · rw [if_neg hki, if_pos (not_le.1 hki), add_neg_cancel]

/-- The system stretches every vector. -/
def Stretches (low : ℝ) (a : Rows n) : Prop :=
  ∀ x : Fin n → ℝ, low ^ 2 * ∑ j, x j ^ 2 ≤ ∑ i, dot (a i) (Fin.snoc x 0) ^ 2

theorem exists_pivot {k : Fin n} (h : Reduced a k.val m) (hlow : Stretches low a)
    (hsmall : n * tiny ^ 2 < low ^ 2) :
    ∃ i, k ≤ i ∧ tiny ≤ |m i k.castSucc| := by
  by_contra hnone
  push Not at hnone
  have hkernel : ∀ i : Fin n, i.val < k.val → dot (m i) (kernelVector m k) = 0 := by
    intro i hi
    rw [dot_kernelVector h]
    exact if_neg (not_le.2 hi)
  have hnorm := h.norm _ hkernel
  have hupper : (∑ i : Fin n, if k.val ≤ i.val then dot (m i) (kernelVector m k) ^ 2 else 0) ≤
      ∑ _i : Fin n, tiny ^ 2 := by
    refine Finset.sum_le_sum fun i _ => ?_
    split
    · rename_i hi
      rw [dot_kernelVector h, if_pos (show k ≤ i from hi)]
      exact sq_le_sq' (neg_le_of_abs_le (hnone i hi).le) (le_of_abs_le (hnone i hi).le)
    · exact sq_nonneg tiny
  rw [Finset.sum_const, Finset.card_univ, Fintype.card_fin, nsmul_eq_mul] at hupper
  have hstretch := hlow fun j => if j = k then 1 else if j < k then -m j k.castSucc else 0
  have hone : (1 : ℝ) ≤
      ∑ j, (if j = k then 1 else if j < k then -m j k.castSucc else 0 : ℝ) ^ 2 := by
    refine le_trans ?_ (Finset.single_le_sum (fun j _ => sq_nonneg _) (Finset.mem_univ k))
    simp
  have hlower := mul_le_mul_of_nonneg_left hone (sq_nonneg low)
  rw [mul_one] at hlower
  exact absurd ((hlower.trans hstretch).trans (hnorm.le.trans hupper)) (not_le.2 hsmall)

theorem foldl_larger {α : Type*} (f : α → ℝ) (l : List α) (j : α) :
    let r := l.foldl (fun j i => if f j < f i then i else j) j
    (r = j ∨ r ∈ l) ∧ f j ≤ f r ∧ ∀ i ∈ l, f i ≤ f r := by
  induction l generalizing j with
  | nil => exact ⟨.inl rfl, le_rfl, fun i hi => absurd hi List.not_mem_nil⟩
  | cons first rest ih =>
    dsimp only [List.foldl_cons]
    obtain ⟨hmem, hstart, hrest⟩ := ih (if f j < f first then first else j)
    have hlarger : f j ≤ f (if f j < f first then first else j) ∧
        f first ≤ f (if f j < f first then first else j) := by
      split
      · rename_i hlt
        exact ⟨hlt.le, le_rfl⟩
      · rename_i hge
        exact ⟨le_rfl, not_lt.1 hge⟩
    refine ⟨?_, hlarger.1.trans hstart, fun i hi => ?_⟩
    · rcases hmem with heq | hmem
      · rw [heq]
        split
        · exact .inr List.mem_cons_self
        · exact .inl rfl
      · exact .inr (List.mem_cons_of_mem _ hmem)
    · rcases List.mem_cons.1 hi with rfl | hi
      · exact hlarger.2.trans hstart
      · exact hrest i hi

theorem pivotRow_spec (m : Rows n) (k : Fin n) : k ≤ pivotRow m k ∧
    ∀ i, k ≤ i → |m i k.castSucc| ≤ |m (pivotRow m k) k.castSucc| := by
  obtain ⟨hmem, hstart, hrest⟩ :=
    foldl_larger (fun i => |m i k.castSucc|) ((List.finRange n).filter fun i => k < i) k
  refine ⟨?_, fun i hi => ?_⟩
  · rcases hmem with heq | hmem
    · exact heq.ge
    · exact (of_decide_eq_true (List.mem_filter.1 hmem).2).le
  · rcases hi.eq_or_lt with rfl | hlt
    · exact hstart
    · exact hrest i (List.mem_filter.2 ⟨List.mem_finRange i, decide_eq_true hlt⟩)

/-! ## One column -/

theorem le_swap_iff {k p : Fin n} (hp : k ≤ p) (i : Fin n) :
    k ≤ Equiv.swap k p i ↔ k ≤ i := by
  by_cases hk : i = k
  · rw [hk, Equiv.swap_apply_left]
    exact ⟨fun _ => le_rfl, fun _ => hp⟩
  · by_cases hip : i = p
    · rw [hip, Equiv.swap_apply_right]
      exact ⟨fun _ => hp, fun _ => le_rfl⟩
    · rw [Equiv.swap_apply_of_ne_of_ne hk hip]

theorem Reduced.swap {k p : Fin n} (h : Reduced a k.val m) (hp : k ≤ p) :
    Reduced a k.val fun i => m (Equiv.swap k p i) where
  unit := by
    intro i j hj
    have hjk : j < k := hj
    have hfixed : Equiv.swap k p j = j :=
      Equiv.swap_apply_of_ne_of_ne hjk.ne (hjk.trans_le hp).ne
    rw [h.unit _ j hj]
    refine if_congr ?_ rfl rfl
    rw [Equiv.swap_apply_eq_iff, hfixed]
  norm := by
    intro y hy
    have hfinished : ∀ i : Fin n, i.val < k.val → dot (m i) y = 0 := by
      intro i hi
      have hik : i < k := hi
      have hrow := hy i hi
      rwa [Equiv.swap_apply_of_ne_of_ne hik.ne (hik.trans_le hp).ne] at hrow
    rw [h.norm y hfinished,
      ← Equiv.sum_comp (Equiv.swap k p) fun i => if k.val ≤ i.val then dot (m i) y ^ 2 else 0]
    refine Finset.sum_congr rfl fun i _ => ?_
    exact if_congr (le_swap_iff hp i) rfl rfl

/-- The column is cleared by the pivot. -/
noncomputable def cleared (m : Rows n) (k : Fin n) : Rows n := fun i t =>
  if i = k then m k t / m k k.castSucc
  else m i t - m i k.castSucc * (m k t / m k k.castSucc)

theorem dot_cleared (m : Rows n) (k i : Fin n) (y : Fin (n + 1) → ℝ) :
    dot (cleared m k i) y =
      if i = k then dot (m k) y / m k k.castSucc
      else dot (m i) y - m i k.castSucc * (dot (m k) y / m k k.castSucc) := by
  unfold dot cleared
  split
  · rw [Finset.sum_div]
    exact Finset.sum_congr rfl fun t _ => by ring
  · rw [Finset.sum_div, Finset.mul_sum, ← Finset.sum_sub_distrib]
    exact Finset.sum_congr rfl fun t _ => by ring

theorem Reduced.cleared {k : Fin n} (h : Reduced a k.val m) (hv : m k k.castSucc ≠ 0) :
    Reduced a (k.val + 1) (GaussJordan.cleared m k) where
  unit := by
    intro i j hj
    unfold GaussJordan.cleared
    rcases (Nat.lt_succ_iff.1 hj).eq_or_lt with heq | hlt
    · have hjk : j = k := Fin.ext heq
      subst hjk
      split
      · exact div_self hv
      · rw [div_self hv, mul_one, sub_self]
    · have hjk : j < k := hlt
      have hpivot : m k j.castSucc = 0 := by
        rw [h.unit k j hlt]
        exact if_neg hjk.ne'
      rw [hpivot, zero_div, mul_zero, sub_zero]
      split
      · rename_i hik
        rw [hik, if_neg hjk.ne']
      · exact h.unit i j hlt
  norm := by
    intro y hy
    have hk : dot (m k) y = 0 := by
      have := hy k (Nat.lt_succ_self _)
      rw [dot_cleared, if_pos rfl, div_eq_zero_iff] at this
      exact this.resolve_right hv
    have hother : ∀ i, i ≠ k → dot (GaussJordan.cleared m k i) y = dot (m i) y := by
      intro i hi
      rw [dot_cleared, if_neg hi, hk, zero_div, mul_zero, sub_zero]
    rw [h.norm y]
    · refine Finset.sum_congr rfl fun i _ => ?_
      by_cases hik : i = k
      · rw [hik, if_pos le_rfl, if_neg (Nat.not_succ_le_self _), hk]
        exact zero_pow two_ne_zero
      · rw [hother i hik]
        refine if_congr ?_ rfl rfl
        have hne : i.val ≠ k.val := fun heq => hik (Fin.ext heq)
        omega
    · intro i hi
      have hik : i ≠ k := fun heq => absurd (heq ▸ hi) (lt_irrefl _)
      rw [← hother i hik]
      exact hy i (Nat.lt_succ_of_lt hi)

theorem eliminate_some {k : Fin n} {m' : Rows n} (h : Reduced a k.val m) (htiny : 0 < tiny)
    (hsome : eliminate tiny m k = some m') : Reduced a (k.val + 1) m' := by
  obtain ⟨hp, -⟩ := pivotRow_spec m k
  have hswap := h.swap hp
  unfold eliminate at hsome
  dsimp only at hsome
  split at hsome
  · cases hsome
  · rename_i hv
    have hv' : m (Equiv.swap k (pivotRow m k) k) k.castSucc ≠ 0 :=
      abs_pos.1 (htiny.trans_le (not_lt.1 hv))
    rw [← Option.some.inj hsome]
    refine (congrArg (Reduced a (k.val + 1)) ?_).mp (hswap.cleared hv')
    funext i t
    unfold GaussJordan.cleared
    by_cases ht : k.castSucc ≤ t
    · simp only [ht, if_true]
    · have hlt : t.val < k.val := not_le.1 ht
      have hzero := hswap.unit k ⟨t.val, hlt.trans k.isLt⟩ hlt
      rw [if_neg (ne_of_gt (show (⟨t.val, _⟩ : Fin n) < k from hlt))] at hzero
      have hzero' : m (Equiv.swap k (pivotRow m k) k) t = 0 := hzero
      simp only [ht, if_false, hzero', zero_div, mul_zero, sub_zero]

theorem eliminate_spec {k : Fin n} (h : Reduced a k.val m)
    (hpivot : ∃ i, k ≤ i ∧ tiny ≤ |m i k.castSucc|) (htiny : 0 < tiny) :
    ∃ m', eliminate tiny m k = some m' ∧ Reduced a (k.val + 1) m' := by
  obtain ⟨i, hi, hlarge⟩ := hpivot
  obtain ⟨-, hmax⟩ := pivotRow_spec m k
  have hv : tiny ≤ |m (Equiv.swap k (pivotRow m k) k) k.castSucc| := by
    rw [Equiv.swap_apply_left]
    exact hlarge.trans (hmax i hi)
  have hsome : ∃ m', eliminate tiny m k = some m' := by
    unfold eliminate
    dsimp only
    rw [if_neg (not_lt.2 hv)]
    exact ⟨_, rfl⟩
  obtain ⟨m', hm'⟩ := hsome
  exact ⟨m', hm', eliminate_some h htiny hm'⟩

/-! ## All columns -/

theorem foldlM_eliminate (hlow : Stretches low a) (htiny : 0 < tiny)
    (hsmall : n * tiny ^ 2 < low ^ 2) (c : ℕ) (hc : c ≤ n) :
    ∃ m, ((List.finRange n).take c).foldlM (eliminate tiny) a = some m ∧ Reduced a c m := by
  induction c with
  | zero => exact ⟨a, rfl, reduced_zero a⟩
  | succ c ih =>
    obtain ⟨m, hm, hreduced⟩ := ih (Nat.le_of_succ_le hc)
    have hlen : c < (List.finRange n).length := by
      rw [List.length_finRange]
      exact hc
    have hreduced' : Reduced a (⟨c, hc⟩ : Fin n).val m := hreduced
    obtain ⟨m', hm', hnext⟩ := eliminate_spec hreduced'
      (exists_pivot hreduced' hlow hsmall) htiny
    refine ⟨m', ?_, hnext⟩
    rw [List.take_succ_eq_append_getElem hlen, List.foldlM_append, hm]
    simp [hm']

theorem foldlM_eliminate_some (htiny : 0 < tiny) (c : ℕ) (hc : c ≤ n)
    (hsome : ((List.finRange n).take c).foldlM (eliminate tiny) a = some m) : Reduced a c m := by
  induction c generalizing m with
  | zero =>
    rw [← Option.some.inj hsome]
    exact reduced_zero a
  | succ c ih =>
    have hlen : c < (List.finRange n).length := by
      rw [List.length_finRange]
      exact hc
    rw [List.take_succ_eq_append_getElem hlen, List.foldlM_append] at hsome
    obtain ⟨m', hm', hlast⟩ := Option.bind_eq_some_iff.1 hsome
    have hreduced : Reduced a (⟨c, hc⟩ : Fin n).val m' := ih (Nat.le_of_succ_le hc) hm'
    refine eliminate_some hreduced htiny ?_
    simpa using hlast

theorem dot_augmented (a : Fin n → Fin n → ℝ) (b x : Fin n → ℝ) (r : ℝ) (i : Fin n) :
    dot (augmented a b i) (Fin.snoc x r) = ∑ j, a i j * x j + b i * r := by
  rw [dot_snoc]
  unfold augmented
  simp

theorem Reduced.solution {a : Fin n → Fin n → ℝ} {b : Fin n → ℝ}
    (h : Reduced (augmented a b) n m) (i : Fin n) : ∑ j, a i j * m j (Fin.last n) = b i := by
  -- the solution with -1 behind it is sent to 0 by the reduced rows, so by the system
  have hzero : ∀ i : Fin n, dot (m i) (Fin.snoc (fun i => m i (Fin.last n)) (-1)) = 0 := by
    intro i
    rw [dot_snoc, Finset.sum_congr rfl fun j _ => by rw [h.unit i j j.isLt]]
    simp
  have hsum := h.norm _ fun i _ => hzero i
  simp only [hzero, ite_self, Finset.sum_const_zero, zero_pow two_ne_zero] at hsum
  have hall := (Finset.sum_eq_zero_iff_of_nonneg fun i _ => sq_nonneg _).1 hsum i
    (Finset.mem_univ i)
  have hrow := pow_eq_zero_iff two_ne_zero |>.1 hall
  rw [dot_augmented] at hrow
  linarith

theorem solve_sound {a : Fin n → Fin n → ℝ} {b x : Fin n → ℝ} (htiny : 0 < tiny)
    (hsome : solve tiny a b = some x) (i : Fin n) : ∑ j, a i j * x j = b i := by
  obtain ⟨m, hm, rfl⟩ := Option.map_eq_some_iff.1 hsome
  have htake : (List.finRange n).take n = List.finRange n :=
    List.take_of_length_le (by rw [List.length_finRange])
  exact (foldlM_eliminate_some htiny n le_rfl (by rwa [htake])).solution i

theorem solve_spec {a : Fin n → Fin n → ℝ} {b : Fin n → ℝ}
    (hlow : ∀ x : Fin n → ℝ, low ^ 2 * ∑ j, x j ^ 2 ≤ ∑ i, (∑ j, a i j * x j) ^ 2)
    (htiny : 0 < tiny) (hsmall : n * tiny ^ 2 < low ^ 2) :
    ∃ x, solve tiny a b = some x ∧ ∀ i, ∑ j, a i j * x j = b i := by
  have hstretch : Stretches low (augmented a b) := by
    intro x
    simp only [dot_augmented, mul_zero, add_zero]
    exact hlow x
  obtain ⟨m, hm, hreduced⟩ := foldlM_eliminate hstretch htiny hsmall n le_rfl
  rw [List.take_of_length_le (by rw [List.length_finRange])] at hm
  exact ⟨fun i => m i (Fin.last n), by rw [solve, hm]; rfl, hreduced.solution⟩

theorem stretch_of_inverse {a c : Fin n → Fin n → ℝ} {bound : ℝ}
    (hinv : ∀ (x : Fin n → ℝ) (j : Fin n), ∑ i, c j i * ∑ k, a i k * x k = x j)
    (hbound : ∑ j, ∑ i, c j i ^ 2 ≤ bound) (x : Fin n → ℝ) :
    ∑ j, x j ^ 2 ≤ bound * ∑ i, (∑ j, a i j * x j) ^ 2 := by
  have hnonneg : 0 ≤ ∑ i, (∑ j, a i j * x j) ^ 2 := Finset.sum_nonneg fun i _ => sq_nonneg _
  calc ∑ j, x j ^ 2
      = ∑ j, (∑ i, c j i * ∑ k, a i k * x k) ^ 2 := by simp only [hinv]
    _ ≤ ∑ j, (∑ i, c j i ^ 2) * ∑ i, (∑ k, a i k * x k) ^ 2 :=
      Finset.sum_le_sum fun j _ => Finset.sum_mul_sq_le_sq_mul_sq ..
    _ = (∑ j, ∑ i, c j i ^ 2) * ∑ i, (∑ k, a i k * x k) ^ 2 := (Finset.sum_mul ..).symm
    _ ≤ bound * ∑ i, (∑ j, a i j * x j) ^ 2 := mul_le_mul_of_nonneg_right hbound hnonneg

theorem stretch_of_form {a : Fin n → Fin n → ℝ} (hpos : 0 < low)
    (hform : ∀ x : Fin n → ℝ, low * ∑ j, x j ^ 2 ≤ ∑ i, x i * ∑ j, a i j * x j)
    (x : Fin n → ℝ) : low ^ 2 * ∑ j, x j ^ 2 ≤ ∑ i, (∑ j, a i j * x j) ^ 2 := by
  have hcauchy := Finset.sum_mul_sq_le_sq_mul_sq Finset.univ x fun i => ∑ j, a i j * x j
  have hx := hform x
  have hnonneg : 0 ≤ ∑ j, x j ^ 2 := Finset.sum_nonneg fun j _ => sq_nonneg _
  rcases hnonneg.eq_or_lt with hzero | hlt
  · rw [← hzero, mul_zero]
    exact Finset.sum_nonneg fun i _ => sq_nonneg _
  · refine le_of_mul_le_mul_left ?_ hlt
    calc (∑ j, x j ^ 2) * (low ^ 2 * ∑ j, x j ^ 2) = (low * ∑ j, x j ^ 2) ^ 2 := by ring
      _ ≤ (∑ i, x i * ∑ j, a i j * x j) ^ 2 :=
        pow_le_pow_left₀ (mul_nonneg hpos.le hnonneg) hx 2
      _ ≤ (∑ j, x j ^ 2) * ∑ i, (∑ j, a i j * x j) ^ 2 := hcauchy

end Reduction

end Questix.Lib.GaussJordan

/-
Questix.Lib.Dbl — the numbers of a C++ `double`, as far as control code looks
at them: not-a-number, the two infinities, and finite values.

Every finite double is a rational number, so the finite values are `ℚ` and
arithmetic on them is exact; what is modelled of the format is its special
values. Comparisons are the IEEE ones: every comparison with `nan` is false,
so `¬ a ≤ b` is not `b < a`. `max`, `min` and `clamp` are written as the
C++ standard library defines them, with the argument order that decides
what happens to `nan`.
-/
import Mathlib.Data.Rat.Defs
import Mathlib.Algebra.Order.Ring.Rat
import Mathlib.Algebra.Order.Group.Abs
import Mathlib.Tactic.Linarith

namespace Questix.Lib

/-- A double: `nan`, an infinity, or a finite value. -/
inductive Dbl where
  | nan
  | ninf
  | fin (q : ℚ)
  | pinf
  deriving DecidableEq

namespace Dbl

/-! ## Comparisons -/

/-- IEEE `<`: false as soon as one side is `nan`. -/
def ltb : Dbl → Dbl → Bool
  | ninf, fin _ => true
  | ninf, pinf => true
  | fin a, fin b => decide (a < b)
  | fin _, pinf => true
  | _, _ => false

/-- IEEE `<=`: false as soon as one side is `nan`. -/
def leb : Dbl → Dbl → Bool
  | ninf, ninf => true
  | ninf, fin _ => true
  | ninf, pinf => true
  | fin a, fin b => decide (a ≤ b)
  | fin _, pinf => true
  | pinf, pinf => true
  | _, _ => false

instance : LT Dbl := ⟨fun a b => ltb a b = true⟩
instance : LE Dbl := ⟨fun a b => leb a b = true⟩
instance : OfNat Dbl n := ⟨fin n⟩
instance : Inhabited Dbl := ⟨0⟩

instance (a b : Dbl) : Decidable (a < b) := inferInstanceAs (Decidable (ltb a b = true))
instance (a b : Dbl) : Decidable (a ≤ b) := inferInstanceAs (Decidable (leb a b = true))

/-- IEEE `==`: `nan` is not equal to itself. -/
protected def eq (a b : Dbl) : Bool := a != nan && a == b

/-- `std::isfinite` -/
def isfinite : Dbl → Bool
  | fin _ => true
  | _ => false

/-- `std::isnan` -/
def isnan : Dbl → Bool
  | nan => true
  | _ => false

/-- `std::isinf` -/
def isinf : Dbl → Bool
  | ninf => true
  | pinf => true
  | _ => false

/-! ## Arithmetic -/

protected def neg : Dbl → Dbl
  | nan => nan
  | ninf => pinf
  | fin a => fin (-a)
  | pinf => ninf

protected def add : Dbl → Dbl → Dbl
  | nan, _ => nan
  | _, nan => nan
  | ninf, pinf => nan
  | pinf, ninf => nan
  | ninf, _ => ninf
  | _, ninf => ninf
  | pinf, _ => pinf
  | _, pinf => pinf
  | fin a, fin b => fin (a + b)

instance : Neg Dbl := ⟨Dbl.neg⟩
instance : Add Dbl := ⟨Dbl.add⟩
instance : Sub Dbl := ⟨fun a b => a + -b⟩

/-- `std::abs` -/
protected def abs : Dbl → Dbl
  | nan => nan
  | fin a => fin |a|
  | _ => pinf

/-- `std::max(a, b)` -/
protected def max (a b : Dbl) : Dbl := if a < b then b else a

/-- `std::min(a, b)` -/
protected def min (a b : Dbl) : Dbl := if b < a then b else a

/-- An integer times a double. -/
def scale (n : ℤ) : Dbl → Dbl
  | nan => nan
  | fin a => fin (n * a)
  | ninf => if n = 0 then nan else if 0 < n then ninf else pinf
  | pinf => if n = 0 then nan else if 0 < n then pinf else ninf

/-- `std::clamp(v, lo, hi)` -/
def clamp (v lo hi : Dbl) : Dbl := if v < lo then lo else if hi < v then hi else v

section Lemmas

variable {a b c : Dbl} {p q : ℚ}

@[simp] theorem fin_lt_fin : fin p < fin q ↔ p < q := by
  show decide (p < q) = true ↔ _
  simp

@[simp] theorem fin_le_fin : fin p ≤ fin q ↔ p ≤ q := by
  show decide (p ≤ q) = true ↔ _
  simp

@[simp] theorem fin_sub_fin : fin p - fin q = fin (p - q) := by
  show fin (p + -q) = fin (p - q)
  rw [sub_eq_add_neg]

@[simp] theorem fin_sub_ninf : fin p - ninf = pinf := rfl
@[simp] theorem not_pinf_le_fin : ¬ pinf ≤ fin p := Bool.false_ne_true
@[simp] theorem isfinite_fin : (fin p).isfinite = true := rfl

theorem isfinite_iff : a.isfinite = true ↔ ∃ q, a = fin q := by
  cases a <;> simp [isfinite]

theorem sub_le_of_le {t t' : ℚ} (h : t ≤ t') (ha : fin t' - a ≤ c) : fin t - a ≤ c := by
  cases a <;> cases c <;> try exact ha
  rename_i x y
  simp only [fin_sub_fin, fin_le_fin] at ha ⊢
  linarith

theorem not_lt_of_le (h : a ≤ b) : ¬ b < a := by
  cases a <;> cases b <;> try (first | exact Bool.false_ne_true | exact absurd h Bool.false_ne_true)
  simp only [fin_le_fin, fin_lt_fin] at h ⊢
  linarith

protected theorem lt_of_lt_of_le (h : a < b) (h' : b ≤ c) : a < c := by
  cases a <;> cases b <;> try exact absurd h Bool.false_ne_true
  all_goals cases c <;> try (first | rfl | exact absurd h' Bool.false_ne_true)
  simp only [fin_lt_fin, fin_le_fin] at h h' ⊢
  linarith

end Lemmas

end Dbl

end Questix.Lib

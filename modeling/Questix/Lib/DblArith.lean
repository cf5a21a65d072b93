/-
Questix.Lib.DblArith — products, quotients and roundings of doubles, and the
functions of `<cmath>` whose values are no rational numbers.

As in `Questix.Lib.Dbl`, finite arithmetic is exact and the special values are
the IEEE ones; the sign of a zero is not kept, so a zero divisor counts as
positive. What a library makes of `sqrt`, `exp` and the trigonometric functions
is a parameter (`Libm`): a result over every `Libm` does not depend on their
values.
-/
import Mathlib.Algebra.Order.Field.Rat
import Questix.Lib.Dbl
import Questix.Lib.Round

namespace Questix.Lib

/-- The functions of `<cmath>` as a library computes them. -/
class Libm where
  sqrt : ℚ → ℚ
  exp : ℚ → ℚ
  sin : ℚ → ℚ
  cos : ℚ → ℚ
  atan2 : ℚ → ℚ → ℚ

/-- To the nearest integer, halves to the even one. -/
def roundHalfEven (q : ℚ) : ℤ :=
  if Int.fract q = 1 / 2 ∧ round q % 2 = 1 then round q - 1 else round q

theorem abs_sub_roundHalfEven_le (q : ℚ) : |q - roundHalfEven q| ≤ 1 / 2 := by
  unfold roundHalfEven
  split_ifs with h
  · -- a half, which `round` took up
    have hround : round q = ⌊q⌋ + 1 := by
      rw [round_eq_iff]
      have hfloor := Int.floor_add_fract q
      rw [h.1] at hfloor
      push_cast
      constructor <;> linarith
    have hfloor := Int.floor_add_fract q
    rw [h.1] at hfloor
    rw [hround, abs_le]
    push_cast
    constructor <;> linarith
  · exact abs_sub_round q

namespace Dbl

/-- An infinity of the sign of `q`; `nan` for 0. -/
def infOf (q : ℚ) : Dbl := if q = 0 then nan else if 0 < q then pinf else ninf

protected def mul : Dbl → Dbl → Dbl
  | fin a, fin b => fin (a * b)
  | nan, _ => nan
  | _, nan => nan
  | fin a, pinf => infOf a
  | fin a, ninf => infOf (-a)
  | pinf, fin b => infOf b
  | ninf, fin b => infOf (-b)
  | pinf, pinf => pinf
  | pinf, ninf => ninf
  | ninf, pinf => ninf
  | ninf, ninf => pinf

protected def div : Dbl → Dbl → Dbl
  | fin a, fin b => if b = 0 then infOf a else fin (a / b)
  | fin _, pinf => 0
  | fin _, ninf => 0
  | pinf, fin b => if b < 0 then ninf else pinf
  | ninf, fin b => if b < 0 then pinf else ninf
  | _, _ => nan

instance : Mul Dbl := ⟨Dbl.mul⟩
instance : Div Dbl := ⟨Dbl.div⟩

/-- `std::round`: halves away from zero. -/
protected def round : Dbl → Dbl
  | fin a => fin (lround a)
  | a => a

/-- A function of the library; what it does outside the finite values is not
used. -/
def lift (f : ℚ → ℚ) : Dbl → Dbl
  | fin a => fin (f a)
  | _ => nan

def value : Dbl → ℚ
  | fin a => a
  | _ => 0

section Lemmas

variable {p q : ℚ}

@[simp] theorem fin_add_fin : fin p + fin q = fin (p + q) := rfl
@[simp] theorem fin_mul_fin : fin p * fin q = fin (p * q) := rfl
@[simp] theorem neg_fin : -fin p = fin (-p) := rfl
@[simp] theorem round_fin : (fin p).round = fin (lround p) := rfl

theorem fin_div_fin (h : q ≠ 0) : fin p / fin q = fin (p / q) := by
  show (if q = 0 then infOf p else fin (p / q)) = _
  rw [if_neg h]

@[simp] theorem ofNat_eq (n : ℕ) [n.AtLeastTwo] : (OfNat.ofNat n : Dbl) = fin (OfNat.ofNat n) := rfl

end Lemmas

end Dbl

end Questix.Lib

/-
Questix.Lib.Binary — numbers of a binary file: little endian words, and what a
double makes of a count.
-/
import Mathlib.Algebra.Group.Nat.Defs
import Mathlib.Data.Nat.Log
import Mathlib.Data.List.Basic
import Mathlib.Tactic.Common

namespace Questix.Lib

abbrev Bytes := List UInt8

namespace Binary

/-- The number that bytes are, the low one first. -/
def little : Bytes → ℕ
  | [] => 0
  | byte :: rest => byte.toNat + 256 * little rest

/-- A number as `size` bytes. -/
def word : (size : ℕ) → ℕ → Bytes
  | 0, _ => []
  | size + 1, n => UInt8.ofNat n :: word size (n / 256)

@[simp] theorem length_word (size n : ℕ) : (word size n).length = size := by
  induction size generalizing n with
  | zero => rfl
  | succ size ih => simp [word, ih]

theorem little_word {size n : ℕ} (h : n < 256 ^ size) : little (word size n) = n := by
  induction size generalizing n with
  | zero =>
    rw [Nat.pow_zero] at h
    simp [word, little]
    omega
  | succ size ih =>
    have hrest : n / 256 < 256 ^ size := Nat.div_lt_of_lt_mul (by rw [Nat.pow_succ] at h; omega)
    rw [word, little, ih hrest, UInt8.toNat_ofNat']
    exact Nat.mod_add_div n 256

/-! ## Doubles -/

/-- The double nearest to a natural number, ties to even. -/
def num (n : ℕ) : ℕ :=
  if n ≤ 2 ^ 53 then n
  else
    let unit := 2 ^ (n.log2 - 52)
    let whole := n / unit
    let rest := n % unit
    (if 2 * rest > unit ∨ 2 * rest = unit ∧ whole % 2 = 1 then whole + 1 else whole) * unit

def add (a b : ℕ) : ℕ := num (a + b)

theorem num_of_le {n : ℕ} (h : n ≤ 2 ^ 53) : num n = n := if_pos h

theorem le_num {n : ℕ} (h : 2 ^ 53 < n) : 2 ^ 53 ≤ num n := by
  have hne : n ≠ 0 := by omega
  have hlog : 53 ≤ n.log2 := (Nat.le_log2 hne).mpr h.le
  have hsplit : 2 ^ (n.log2 - 52) * 2 ^ 52 = 2 ^ n.log2 := by
    rw [← Nat.pow_add]
    congr 1
    omega
  have hwhole : 2 ^ 52 ≤ n / 2 ^ (n.log2 - 52) := by
    rw [Nat.le_div_iff_mul_le (Nat.two_pow_pos _), Nat.mul_comm, hsplit]
    exact Nat.log2_self_le hne
  have hunit : 2 ≤ 2 ^ (n.log2 - 52) := by
    calc 2 = 2 ^ 1 := rfl
      _ ≤ 2 ^ (n.log2 - 52) := Nat.pow_le_pow_right (by omega) (by omega)
  unfold num
  rw [if_neg (by omega)]
  dsimp only
  have hcount : 2 ^ 52 ≤ if 2 * (n % 2 ^ (n.log2 - 52)) > 2 ^ (n.log2 - 52) ∨
      2 * (n % 2 ^ (n.log2 - 52)) = 2 ^ (n.log2 - 52) ∧ n / 2 ^ (n.log2 - 52) % 2 = 1 then
      n / 2 ^ (n.log2 - 52) + 1 else n / 2 ^ (n.log2 - 52) := by
    split_ifs
    · omega
    · exact hwhole
  calc 2 ^ 53 = 2 ^ 52 * 2 := rfl
    _ ≤ _ := Nat.mul_le_mul hcount hunit

theorem num_eq_of_lt {n : ℕ} (h : num n < 2 ^ 53) : num n = n := by
  by_cases hn : n ≤ 2 ^ 53
  · exact num_of_le hn
  · have hlarge := le_num (not_le.mp hn)
    omega

theorem add_eq_of_lt {a b : ℕ} (h : add a b < 2 ^ 53) : add a b = a + b := num_eq_of_lt h

theorem add_of_le {a b : ℕ} (h : a + b ≤ 2 ^ 53) : add a b = a + b := num_of_le h

theorem le_add {a : ℕ} (b : ℕ) (h : a < 2 ^ 53) : a ≤ add a b := by
  by_cases hsum : a + b ≤ 2 ^ 53
  · rw [add_of_le hsum]
    omega
  · exact h.le.trans (le_num (by omega))

end Binary

end Questix.Lib

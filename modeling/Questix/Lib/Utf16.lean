/-
Questix.Lib.Utf16 — a text as its UTF-16 code units.

Cutting a text after `n` code units and cutting it after `n` characters is the
same where the first `n` characters are `n` code units at most
(`take_utf16_iff`).
-/
import Mathlib.Data.List.Basic
import Mathlib.Tactic.Common

namespace Questix.Lib

/-- The code units of a character: one, or a pair of surrogates. -/
def utf16Char (c : Char) : List UInt16 :=
  let n := c.toNat
  if n < 0x10000 then [n.toUInt16]
  else [(0xD800 + (n - 0x10000) / 0x400).toUInt16, (0xDC00 + (n - 0x10000) % 0x400).toUInt16]

def utf16 (s : List Char) : List UInt16 := s.flatMap utf16Char

theorem utf16_append (s t : List Char) : utf16 (s ++ t) = utf16 s ++ utf16 t :=
  List.flatMap_append

theorem length_utf16Char_pos (c : Char) : 0 < (utf16Char c).length := by
  unfold utf16Char
  dsimp only
  split <;> simp

theorem length_le_utf16 (s : List Char) : s.length ≤ (utf16 s).length := by
  induction s with
  | nil => exact Nat.le_refl 0
  | cons c s ih =>
    have hc := length_utf16Char_pos c
    have hs : (utf16 (c :: s)).length = (utf16Char c).length + (utf16 s).length := by
      simp [utf16]
    rw [hs, List.length_cons]
    omega

theorem take_utf16_iff (s : List Char) (n : ℕ) :
    (utf16 s).take n = utf16 (s.take n) ↔ (utf16 (s.take n)).length ≤ n := by
  constructor
  · intro h
    rw [← h]
    exact List.length_take_le n _
  · intro h
    have hsplit : utf16 s = utf16 (s.take n) ++ utf16 (s.drop n) := by
      rw [← utf16_append, List.take_append_drop]
    rw [hsplit]
    by_cases hlong : n ≤ s.length
    · have hlength : (utf16 (s.take n)).length = n := by
        have hshort := length_le_utf16 (s.take n)
        rw [List.length_take_of_le hlong] at hshort
        exact Nat.le_antisymm h hshort
      rw [List.take_append_of_le_length (Nat.le_of_eq hlength.symm), List.take_of_length_le h]
    · have hrest : s.drop n = [] := List.drop_eq_nil_of_le (by omega)
      have hnil : utf16 [] = [] := rfl
      rw [hrest, hnil, List.append_nil, List.take_of_length_le h]

end Questix.Lib

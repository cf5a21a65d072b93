/-
Questix.Lib.Numerals — the literals of the measured constants.

Mathlib reads a literal `n` of a field off the instance `Nat.AtLeastTwo n`, and
a literal of `Fin n` off `NeZero n`. The tolerances, radii and rates of the
model are such literals; their instances are named here once, so that no
definition carries a proof about its own literal.
-/
import Mathlib.Algebra.GroupWithZero.Nat
import Mathlib.Data.Nat.Cast.Defs

namespace Questix.Lib.Numerals

instance atLeastTwo_2 : Nat.AtLeastTwo 2 := inferInstance
instance atLeastTwo_3 : Nat.AtLeastTwo 3 := inferInstance
instance atLeastTwo_4 : Nat.AtLeastTwo 4 := inferInstance
instance atLeastTwo_5 : Nat.AtLeastTwo 5 := inferInstance
instance atLeastTwo_6 : Nat.AtLeastTwo 6 := inferInstance
instance atLeastTwo_7 : Nat.AtLeastTwo 7 := inferInstance
instance atLeastTwo_8 : Nat.AtLeastTwo 8 := inferInstance
instance atLeastTwo_10 : Nat.AtLeastTwo 10 := inferInstance
instance atLeastTwo_12 : Nat.AtLeastTwo 12 := inferInstance
instance atLeastTwo_13 : Nat.AtLeastTwo 13 := inferInstance
instance atLeastTwo_15 : Nat.AtLeastTwo 15 := inferInstance
instance atLeastTwo_18 : Nat.AtLeastTwo 18 := inferInstance
instance atLeastTwo_20 : Nat.AtLeastTwo 20 := inferInstance
instance atLeastTwo_25 : Nat.AtLeastTwo 25 := inferInstance
instance atLeastTwo_35 : Nat.AtLeastTwo 35 := inferInstance
instance atLeastTwo_45 : Nat.AtLeastTwo 45 := inferInstance
instance atLeastTwo_48 : Nat.AtLeastTwo 48 := inferInstance
instance atLeastTwo_55 : Nat.AtLeastTwo 55 := inferInstance
instance atLeastTwo_60 : Nat.AtLeastTwo 60 := inferInstance
instance atLeastTwo_64 : Nat.AtLeastTwo 64 := inferInstance
instance atLeastTwo_100 : Nat.AtLeastTwo 100 := inferInstance
instance atLeastTwo_130 : Nat.AtLeastTwo 130 := inferInstance
instance atLeastTwo_150 : Nat.AtLeastTwo 150 := inferInstance
instance atLeastTwo_160 : Nat.AtLeastTwo 160 := inferInstance
instance atLeastTwo_180 : Nat.AtLeastTwo 180 := inferInstance
instance atLeastTwo_200 : Nat.AtLeastTwo 200 := inferInstance
instance atLeastTwo_260 : Nat.AtLeastTwo 260 := inferInstance
instance atLeastTwo_320 : Nat.AtLeastTwo 320 := inferInstance
instance atLeastTwo_360 : Nat.AtLeastTwo 360 := inferInstance
instance atLeastTwo_640 : Nat.AtLeastTwo 640 := inferInstance
instance atLeastTwo_1000 : Nat.AtLeastTwo 1000 := inferInstance
instance atLeastTwo_10000 : Nat.AtLeastTwo 10000 := inferInstance
instance atLeastTwo_100000 : Nat.AtLeastTwo 100000 := inferInstance

instance neZero_3 : NeZero 3 := inferInstance
instance neZero_4 : NeZero 4 := inferInstance
instance neZero_8 : NeZero 8 := inferInstance

end Questix.Lib.Numerals

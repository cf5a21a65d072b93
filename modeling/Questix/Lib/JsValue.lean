/-
Questix.Lib.JsValue — plain values of JavaScript, and `trim` of its texts.

A text is its UTF-16 code units. An object is its own members in their order,
each key once; what is not among them reads as `undefined`.
-/
import Questix.Lib.Dbl
import Questix.Lib.Utf16
import Mathlib.Data.List.DropRight

namespace Questix.Lib

abbrev Units := List UInt16

def units (s : String) : Units := utf16 s.toList

inductive Js where
  | undefined
  | null
  | bool (b : Bool)
  | num (x : Dbl)
  | str (s : Units)
  | arr (items : List Js)
  | obj (members : List (Units × Js))

namespace Js

def get (members : List (Units × Js)) (key : Units) : Js :=
  (members.lookup key).getD .undefined

/-- `value?.key`, of a key that only objects have. -/
def prop (value : Js) (key : Units) : Js :=
  match value with
  | .obj members => get members key
  | _ => .undefined

/-- `Number.isFinite(value)`, with the number. -/
def finite : Js → Option ℚ
  | .num (.fin q) => some q
  | _ => none

theorem get_append (first rest : List (Units × Js)) (key : Units) :
    get (first ++ rest) key = ((first.lookup key).or (rest.lookup key)).getD .undefined := by
  unfold get
  rw [List.lookup_append]

end Js

/-! ## Blanks -/

/-- What `trim` takes off: white space and line terminators. -/
def isBlank (u : UInt16) : Bool :=
  let n := u.toNat
  (9 ≤ n && n ≤ 13) || n = 0x20 || n = 0xA0 || n = 0x1680 || (0x2000 ≤ n && n ≤ 0x200A) ||
    n = 0x2028 || n = 0x2029 || n = 0x202F || n = 0x205F || n = 0x3000 || n = 0xFEFF

/-- `text.trim()` -/
def trim (s : Units) : Units := (s.dropWhile isBlank).rdropWhile isBlank

/-- A text that `trim` leaves alone. -/
def Trimmed (s : Units) : Prop :=
  (∀ u ∈ s.head?, isBlank u = false) ∧ ∀ u ∈ s.getLast?, isBlank u = false

theorem trim_eq_self_iff (s : Units) : trim s = s ↔ Trimmed s := by
  unfold trim Trimmed
  cases s with
  | nil => simp
  | cons u rest =>
    constructor
    · intro h
      have hhead : isBlank u = false := by
        by_contra hblank
        have hshort : ((u :: rest).dropWhile isBlank).length ≤ rest.length := by
          rw [List.dropWhile_cons_of_pos (by simpa using hblank)]
          exact List.length_dropWhile_le _ _
        have hlen := List.rdropWhile_prefix isBlank (l := (u :: rest).dropWhile isBlank)
        have hle := hlen.length_le
        rw [h, List.length_cons] at hle
        omega
      rw [List.dropWhile_cons_of_neg (by simp [hhead])] at h
      refine ⟨by simp [hhead], ?_⟩
      have hlast := List.rdropWhile_eq_self_iff.mp h (List.cons_ne_nil _ _)
      intro v hv
      rw [List.getLast?_eq_some_getLast (List.cons_ne_nil _ _), Option.mem_some_iff] at hv
      rw [← hv]
      simpa using hlast
    · rintro ⟨hhead, hlast⟩
      rw [List.dropWhile_cons_of_neg (by simp [hhead u rfl])]
      refine List.rdropWhile_eq_self_iff.mpr fun hne => ?_
      have h := hlast _ (List.getLast?_eq_some_getLast hne)
      simp [h]

theorem trimmed_trim (s : Units) : Trimmed (trim s) := by
  have hhead : ∀ u ∈ (s.dropWhile isBlank).head?, isBlank u = false := by
    intro u hu
    have h := List.head?_dropWhile_not isBlank s
    rw [hu] at h
    simpa using h
  constructor
  · intro u hu
    obtain ⟨rest, hrest⟩ := List.rdropWhile_prefix isBlank (l := s.dropWhile isBlank)
    refine hhead u ?_
    cases htrim : (s.dropWhile isBlank).rdropWhile isBlank with
    | nil =>
      unfold trim at hu
      rw [htrim] at hu
      exact absurd hu (by simp)
    | cons v tail =>
      unfold trim at hu
      rw [htrim] at hu hrest
      rw [← hrest]
      exact hu
  · intro u hu
    have hne : trim s ≠ [] := by
      intro hnil
      rw [hnil] at hu
      exact absurd hu (by simp)
    have hlast := List.rdropWhile_last_not isBlank (s.dropWhile isBlank) hne
    rw [List.getLast?_eq_some_getLast hne, Option.mem_some_iff] at hu
    rw [← hu]
    exact Bool.eq_false_iff.mpr hlast

end Questix.Lib

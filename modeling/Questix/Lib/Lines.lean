/-
Questix.Lib.Lines — the lines of a stream that arrives in pieces.

A stream is cut at a separator. What stands before each separator is a complete
line, what stands behind the last one is unfinished (`completeLines`,
`unfinished`). The laws for `++` say what a reader may do that keeps nothing of
the stream but its unfinished part: the complete lines of a stream are those
of its first part, then those of the rest behind what the first part left
unfinished (`completeLines_append`).
-/
import Mathlib.Data.List.Basic
import Mathlib.Tactic.Common

namespace Questix.Lib

variable {α : Type*} [BEq α] {sep : α} {l xs ys : List α}

/-- The lines of a stream that a separator ends. -/
def completeLines (sep : α) (xs : List α) : List (List α) := (xs.splitOn sep).dropLast

/-- What stands behind the last separator. -/
def unfinished (sep : α) (xs : List α) : List α := (xs.splitOn sep).getLast (by simp)

theorem splitOn_eq_append (sep : α) (xs : List α) :
    xs.splitOn sep = completeLines sep xs ++ [unfinished sep xs] :=
  (List.dropLast_append_getLast _).symm

variable [LawfulBEq α]

theorem completeLines_of_not_mem (h : sep ∉ xs) : completeLines sep xs = [] := by
  rw [completeLines, List.splitOn_eq_singleton h]
  rfl

theorem unfinished_of_not_mem (h : sep ∉ xs) : unfinished sep xs = xs := by
  simp only [unfinished, List.splitOn_eq_singleton h, List.getLast_singleton]

@[simp] theorem completeLines_nil : completeLines sep [] = [] :=
  completeLines_of_not_mem List.not_mem_nil

@[simp] theorem unfinished_nil : unfinished sep [] = [] := unfinished_of_not_mem List.not_mem_nil

theorem completeLines_append_cons (xs ys : List α) :
    completeLines sep (xs ++ sep :: ys)
      = completeLines sep xs ++ unfinished sep xs :: completeLines sep ys := by
  have hne : ys.splitOn sep ≠ [] := List.splitOn_ne_nil sep ys
  rw [completeLines, List.splitOn_append_cons_self, List.dropLast_append_of_ne_nil hne,
    splitOn_eq_append sep xs, List.append_assoc]
  rfl

theorem unfinished_append_cons (xs ys : List α) :
    unfinished sep (xs ++ sep :: ys) = unfinished sep ys := by
  simp only [unfinished, List.splitOn_append_cons_self]
  exact List.getLast_append_right (List.splitOn_ne_nil sep ys)

theorem completeLines_line (h : sep ∉ l) :
    completeLines sep (l ++ sep :: ys) = l :: completeLines sep ys := by
  rw [completeLines_append_cons, completeLines_of_not_mem h, unfinished_of_not_mem h]
  rfl

theorem lines_induction (sep : α) {P : List α → Prop} (tail : ∀ xs, sep ∉ xs → P xs)
    (line : ∀ l ys, sep ∉ l → P ys → P (l ++ sep :: ys)) (xs : List α) : P xs := by
  induction h : xs.length using Nat.strongRecOn generalizing xs with
  | _ n ih =>
    by_cases hsep : sep ∈ xs
    · obtain ⟨l, ys, rfl, hl⟩ := List.eq_append_cons_of_mem hsep
      have hlt : ys.length < n := by
        simp only [List.length_append, List.length_cons] at h
        omega
      exact line l ys hl (ih ys.length hlt ys rfl)
    · exact tail xs hsep

theorem not_mem_unfinished (sep : α) (xs : List α) : sep ∉ unfinished sep xs := by
  induction xs using lines_induction sep with
  | tail xs h => rwa [unfinished_of_not_mem h]
  | line l ys hl ih => rwa [unfinished_append_cons]

theorem unfinished_eq_nil_iff : unfinished sep xs = [] ↔ xs = [] ∨ xs.getLast? = some sep := by
  induction xs using lines_induction sep with
  | tail xs h =>
    rw [unfinished_of_not_mem h]
    have hlast : xs.getLast? ≠ some sep := fun hl => h (List.mem_of_getLast? hl)
    simp [hlast]
  | line l ys hl ih =>
    rw [unfinished_append_cons, ih]
    cases ys with
    | nil => simp
    | cons y ys => simp [List.getLast?_append, List.getLast?_cons_cons]

omit [LawfulBEq α] in
theorem unfinished_mem_splitOn (sep : α) (xs : List α) : unfinished sep xs ∈ xs.splitOn sep := by
  rw [splitOn_eq_append]
  exact List.mem_append_right _ List.mem_cons_self

omit [BEq α] [LawfulBEq α] in
theorem mem_intercalate {a : α} {ls : List (List α)} (h : a ∈ [sep].intercalate ls) :
    a = sep ∨ ∃ l ∈ ls, a ∈ l := by
  induction ls with
  | nil => cases h
  | cons l ls ih =>
    cases ls with
    | nil =>
      rw [List.intercalate_singleton] at h
      exact Or.inr ⟨l, List.mem_cons_self, h⟩
    | cons l' ls =>
      rw [List.intercalate_cons_cons, List.mem_append, List.mem_append, List.mem_singleton] at h
      rcases h with (h | h) | h
      · exact Or.inr ⟨l, List.mem_cons_self, h⟩
      · exact Or.inl h
      · rcases ih h with h | ⟨l₀, hl₀, h⟩
        · exact Or.inl h
        · exact Or.inr ⟨l₀, List.mem_cons_of_mem l hl₀, h⟩

/-! ## A stream in pieces -/

theorem completeLines_append (sep : α) (xs ys : List α) :
    completeLines sep (xs ++ ys)
      = completeLines sep xs ++ completeLines sep (unfinished sep xs ++ ys) := by
  induction xs using lines_induction sep with
  | tail xs h => rw [completeLines_of_not_mem h, unfinished_of_not_mem h, List.nil_append]
  | line l xs hl ih =>
    rw [List.append_assoc, List.cons_append, completeLines_line hl, completeLines_line hl,
      unfinished_append_cons, ih, List.cons_append]

theorem unfinished_append (sep : α) (xs ys : List α) :
    unfinished sep (xs ++ ys) = unfinished sep (unfinished sep xs ++ ys) := by
  induction xs using lines_induction sep with
  | tail xs h => rw [unfinished_of_not_mem h]
  | line l xs hl ih => rw [List.append_assoc, List.cons_append, unfinished_append_cons,
      unfinished_append_cons, ih]

end Questix.Lib

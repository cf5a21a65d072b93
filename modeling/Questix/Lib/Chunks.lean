/-
Questix.Lib.Chunks — cutting a stream that comes in chunks into pieces.

A `Cutter` looks at what it holds and either names the first piece and how many
items it takes, or waits. What it decided it keeps to when more comes, so the
pieces of a stream do not depend on how the stream was divided: `cut_append`.
-/
import Mathlib.Data.List.Basic
import Mathlib.Tactic.Common

namespace Questix.Lib

variable {β ι : Type*}

/-- A reader of the first piece. -/
structure Cutter (β ι : Type*) where
  next : List β → Option (ι × Nat)
  /-- A piece takes something, and nothing that is not there. -/
  bound : ∀ {xs i k}, next xs = some (i, k) → 0 < k ∧ k ≤ xs.length
  /-- More items do not change a decision. -/
  stable : ∀ {xs r}, next xs = some r → ∀ more, next (xs ++ more) = some r

namespace Cutter

variable (c : Cutter β ι)

/-- At most `turns` pieces off the front, and how many items they take. -/
def cutFor : Nat → List β → List ι × Nat
  | 0, _ => ([], 0)
  | turns + 1, xs =>
    match c.next xs with
    | none => ([], 0)
    | some (i, k) =>
      let rest := cutFor turns (xs.drop k)
      (i :: rest.1, k + rest.2)

def pieces (xs : List β) : List ι := (c.cutFor xs.length xs).1

def taken (xs : List β) : Nat := (c.cutFor xs.length xs).2

def left (xs : List β) : List β := xs.drop (c.taken xs)

variable {c}

theorem cutFor_of_next {xs : List β} {i : ι} {k : Nat} (h : c.next xs = some (i, k)) (turns : Nat) :
    c.cutFor (turns + 1) xs
      = (i :: (c.cutFor turns (xs.drop k)).1, k + (c.cutFor turns (xs.drop k)).2) := by
  simp only [cutFor, h]

theorem cutFor_of_wait {xs : List β} (h : c.next xs = none) (turns : Nat) :
    c.cutFor turns xs = ([], 0) := by
  cases turns with
  | zero => rfl
  | succ turns => simp only [cutFor, h]

theorem cutFor_enough : ∀ (turns : Nat) (xs : List β), xs.length ≤ turns →
    c.cutFor turns xs = c.cutFor xs.length xs := by
  intro turns
  induction turns using Nat.strongRecOn with
  | _ turns ih =>
    intro xs hlen
    cases hnext : c.next xs with
    | none => rw [cutFor_of_wait hnext, cutFor_of_wait hnext]
    | some r =>
      obtain ⟨i, k⟩ := r
      obtain ⟨hpos, hle⟩ := c.bound hnext
      have hdrop : (xs.drop k).length = xs.length - k := List.length_drop
      obtain ⟨n, hn⟩ : ∃ n, turns = n + 1 := ⟨turns - 1, by omega⟩
      obtain ⟨l, hl⟩ : ∃ l, xs.length = l + 1 := ⟨xs.length - 1, by omega⟩
      rw [hn, cutFor_of_next hnext, hl, cutFor_of_next hnext, ih n (by omega) _ (by omega)]
      by_cases heq : l = turns
      · omega
      · rw [ih l (by omega) (xs.drop k) (by omega)]

theorem pieces_of_next {xs : List β} {i : ι} {k : Nat} (h : c.next xs = some (i, k)) :
    c.pieces xs = i :: c.pieces (xs.drop k) ∧ c.taken xs = k + c.taken (xs.drop k) := by
  obtain ⟨hpos, hle⟩ := c.bound h
  have hdrop : (xs.drop k).length = xs.length - k := List.length_drop
  obtain ⟨l, hl⟩ : ∃ l, xs.length = l + 1 := ⟨xs.length - 1, by omega⟩
  unfold pieces taken
  rw [hl, cutFor_of_next h, cutFor_enough l (xs.drop k) (by omega)]
  exact ⟨rfl, rfl⟩

theorem pieces_of_wait {xs : List β} (h : c.next xs = none) :
    c.pieces xs = [] ∧ c.taken xs = 0 := by
  unfold pieces taken
  rw [cutFor_of_wait h]
  exact ⟨rfl, rfl⟩

theorem pieces_induction {P : List β → Prop} (wait : ∀ xs, c.next xs = none → P xs)
    (next : ∀ xs i k, c.next xs = some (i, k) → P (xs.drop k) → P xs) : ∀ xs, P xs := by
  intro xs
  induction hn : xs.length using Nat.strongRecOn generalizing xs with
  | _ n ih =>
    cases hnext : c.next xs with
    | none => exact wait xs hnext
    | some r =>
      obtain ⟨i, k⟩ := r
      obtain ⟨hpos, hle⟩ := c.bound hnext
      have hdrop : (xs.drop k).length = xs.length - k := List.length_drop
      exact next xs i k hnext (ih _ (by omega) _ rfl)

theorem next_left (xs : List β) : c.next (c.left xs) = none := by
  unfold left
  induction xs using pieces_induction (c := c) with
  | wait xs h => rw [(pieces_of_wait h).2]; exact h
  | next xs i k h ih =>
    rw [(pieces_of_next h).2, ← List.drop_drop]
    exact ih

theorem cut_append (xs ys : List β) :
    c.pieces (xs ++ ys) = c.pieces xs ++ c.pieces (c.left xs ++ ys) ∧
      c.left (xs ++ ys) = c.left (c.left xs ++ ys) := by
  induction xs using pieces_induction (c := c) with
  | wait xs h =>
    unfold left
    rw [(pieces_of_wait h).1, (pieces_of_wait h).2]
    simp
  | next xs i k h ih =>
    have hmore := c.stable h ys
    have hle := (c.bound h).2
    have hdrop : (xs ++ ys).drop k = xs.drop k ++ ys := List.drop_append_of_le_length hle
    obtain ⟨hpieces, htaken⟩ := pieces_of_next h
    obtain ⟨hpieces', htaken'⟩ := pieces_of_next hmore
    have hleft : c.left xs = c.left (xs.drop k) := by
      unfold left
      rw [htaken, ← List.drop_drop]
    have hleft' : c.left (xs ++ ys) = c.left (xs.drop k ++ ys) := by
      unfold left
      rw [htaken', ← List.drop_drop, hdrop]
    rw [hpieces', hdrop, hpieces, hleft, hleft', ih.1, ih.2]
    exact ⟨rfl, rfl⟩

theorem pieces_spell {spell : ι → List β}
    (h : ∀ {xs i k}, c.next xs = some (i, k) → spell i = xs.take k) (xs : List β) :
    (c.pieces xs).flatMap spell ++ c.left xs = xs := by
  unfold left
  induction xs using pieces_induction (c := c) with
  | wait xs hwait => rw [(pieces_of_wait hwait).1, (pieces_of_wait hwait).2]; simp
  | next xs i k hnext ih =>
    rw [(pieces_of_next hnext).1, (pieces_of_next hnext).2, List.flatMap_cons, h hnext,
      ← List.drop_drop, List.append_assoc, ih, List.take_append_drop]

theorem forall_pieces {P : ι → Prop} (h : ∀ {xs i k}, c.next xs = some (i, k) → P i)
    (xs : List β) : ∀ i ∈ c.pieces xs, P i := by
  induction xs using pieces_induction (c := c) with
  | wait xs hwait => rw [(pieces_of_wait hwait).1]; simp
  | next xs i k hnext ih =>
    rw [(pieces_of_next hnext).1]
    intro j hj
    rcases List.mem_cons.mp hj with rfl | hj
    · exact h hnext
    · exact ih j hj

end Cutter

end Questix.Lib

/-
Questix.Lib.Words — the words of a text, as a stream gives them out.

`nextWord` is what one extraction of a string from a stream takes: it skips the
space in front, and takes what comes before the next space; at the end of the
text there is nothing to take. `words` are all of them. The laws say what the
extractions give one after the other (`words_eq_nextWord`), that nothing but
space is lost (`flatten_words`), and what the words of fields are that were
joined by a space (`words_intercalate`).
-/
import Mathlib.Data.List.TakeWhile
import Mathlib.Tactic.Common

namespace Questix.Lib

variable {α : Type*} {space : α → Bool} {a b : α} {w xs : List α}

/-- What one extraction takes, and what it leaves. -/
def nextWord (space : α → Bool) (xs : List α) : Option (List α × List α) :=
  match (xs.dropWhile space).takeWhile (!space ·) with
  | [] => none
  | a :: w => some (a :: w, (xs.dropWhile space).dropWhile (!space ·))

/-- The words of a text. -/
def words (space : α → Bool) (xs : List α) : List (List α) :=
  (xs.splitOnP space).filter fun w => !w.isEmpty

@[simp] theorem words_nil : words space [] = [] := rfl

theorem words_space (h : space a = true) : words space (a :: xs) = words space xs := by
  simp [words, List.splitOnP_cons_eq_if_modifyHead, h]

theorem words_dropWhile (xs : List α) : words space (xs.dropWhile space) = words space xs := by
  induction xs with
  | nil => rfl
  | cons a xs ih =>
    cases h : space a with
    | true => rw [List.dropWhile_cons_of_pos h, words_space h, ih]
    | false => rw [List.dropWhile_cons_of_neg (by simp [h])]

theorem words_of_no_space (h : ∀ a ∈ w, space a = false) :
    words space w = if w = [] then [] else [w] := by
  rw [words, List.splitOnP_eq_singleton h]
  cases w <;> rfl

theorem words_append_space (h : ∀ a ∈ w, space a = false) (hb : space b = true) :
    words space (w ++ b :: xs) = (if w = [] then [] else [w]) ++ words space xs := by
  rw [words, List.splitOnP_append_cons_of_forall_mem h b hb]
  cases w <;> rfl

theorem words_induction (space : α → Bool) {P : List α → Prop}
    (last : ∀ w, (∀ a ∈ w, space a = false) → P w)
    (word : ∀ w b xs, (∀ a ∈ w, space a = false) → space b = true → P xs → P (w ++ b :: xs))
    (xs : List α) : P xs := by
  have hlast := last []
  induction h : xs.length using Nat.strongRecOn generalizing xs with
  | _ n ih =>
    have hword : ∀ a ∈ xs.takeWhile (!space ·), space a = false := by
      intro a ha
      simpa using List.mem_takeWhile_imp ha
    have hsplit := List.takeWhile_append_dropWhile (p := (!space ·)) (l := xs)
    cases hrest : xs.dropWhile (!space ·) with
    | nil =>
      rw [hrest, List.append_nil] at hsplit
      exact hsplit ▸ last _ hword
    | cons b rest =>
      have hb : space b = true := by
        have hhead := List.head?_dropWhile_not (!space ·) xs
        simpa [hrest] using hhead
      rw [hrest] at hsplit
      have hlt : rest.length < n := by
        rw [← h, ← hsplit]
        simp only [List.length_append, List.length_cons]
        omega
      rw [← hsplit]
      exact word _ b rest hword hb (ih rest.length hlt rest rfl)

theorem words_eq_nextWord (xs : List α) :
    words space xs = match nextWord space xs with
      | none => []
      | some (w, rest) => w :: words space rest := by
  rw [← words_dropWhile]
  unfold nextWord
  have hhead := List.head?_dropWhile_not space xs
  generalize xs.dropWhile space = ys at hhead ⊢
  induction ys using words_induction space with
  | last w hw =>
    have htake : w.takeWhile (!space ·) = w := List.takeWhile_eq_self_iff.2 (by simpa using hw)
    have hdrop : w.dropWhile (!space ·) = [] := List.dropWhile_eq_nil_iff.2 (by simpa using hw)
    rw [words_of_no_space hw, htake, hdrop]
    cases w <;> rfl
  | word w b rest hw hb _ =>
    have htake : (w ++ b :: rest).takeWhile (!space ·) = w := by
      rw [List.takeWhile_append_of_pos (by simpa using hw),
        List.takeWhile_cons_of_neg (by simp [hb]), List.append_nil]
    have hdrop : (w ++ b :: rest).dropWhile (!space ·) = b :: rest := by
      rw [List.dropWhile_append_of_pos (by simpa using hw),
        List.dropWhile_cons_of_neg (by simp [hb])]
    rw [words_append_space hw hb, htake, hdrop]
    cases w with
    | nil => exact absurd hb (by simpa using hhead)
    | cons a w =>
      rw [if_neg (List.cons_ne_nil a w)]
      exact congrArg _ (words_space hb).symm

theorem not_space_of_mem_words (h : w ∈ words space xs) :
    w ≠ [] ∧ ∀ a ∈ w, space a = false := by
  induction xs using words_induction space with
  | last v hv =>
    rw [words_of_no_space hv] at h
    split at h
    · cases h
    · rename_i hne
      rw [List.mem_singleton.1 h]
      exact ⟨hne, hv⟩
  | word v b rest hv hb ih =>
    rw [words_append_space hv hb] at h
    rcases List.mem_append.1 h with h | h
    · split at h
      · cases h
      · rename_i hne
        rw [List.mem_singleton.1 h]
        exact ⟨hne, hv⟩
    · exact ih h

theorem flatten_words (xs : List α) : (words space xs).flatten = xs.filter (!space ·) := by
  induction xs using words_induction space with
  | last w hw =>
    have hall : w.filter (!space ·) = w := List.filter_eq_self.2 (by simpa using hw)
    rw [words_of_no_space hw, hall]
    split <;> simp [*]
  | word w b rest hw hb ih =>
    have hall : w.filter (!space ·) = w := List.filter_eq_self.2 (by simpa using hw)
    rw [words_append_space hw hb, List.flatten_append, ih, List.filter_append, hall]
    split <;> simp [*]

theorem words_intercalate (hb : space b = true) :
    ∀ fields : List (List α), (∀ w ∈ fields, ∀ a ∈ w, space a = false) →
      words space (List.intercalate [b] fields) = fields.filter fun w => !w.isEmpty
  | [], _ => rfl
  | [w], h => by
    have hw := h w (by simp)
    rw [show List.intercalate [b] [w] = w by simp [List.intercalate], words_of_no_space hw]
    cases w <;> rfl
  | w :: v :: fields, h => by
    have hw := h w (by simp)
    have hjoin : List.intercalate [b] (w :: v :: fields) =
        w ++ b :: List.intercalate [b] (v :: fields) := by simp [List.intercalate]
    rw [hjoin, words_append_space hw hb,
      words_intercalate hb (v :: fields) fun u hu => h u (List.mem_cons_of_mem w hu)]
    cases w <;> rfl

end Questix.Lib

/-
Questix.Lib.Slots — a map that keeps its items in the order their keys came, as
a dictionary of Python does: a new value of a known key takes the place of the
old one, and the first item is the one that waits the longest.
-/
import Mathlib.Data.List.Basic
import Mathlib.Tactic.Common

namespace Questix.Lib

variable {κ α : Type*} [DecidableEq κ]

abbrev Slots (κ α : Type*) := List (κ × α)

namespace Slots

/-- `slots[k] = a` -/
def put : Slots κ α → κ → α → Slots κ α
  | [], k, a => [(k, a)]
  | (k', a') :: rest, k, a => if k' = k then (k', a) :: rest else (k', a') :: put rest k a

def get (slots : Slots κ α) (k : κ) : Option α := slots.lookup k

def Distinct (slots : Slots κ α) : Prop := (slots.map Prod.fst).Nodup

theorem get_cons (k k' : κ) (a : α) (rest : Slots κ α) :
    get ((k', a) :: rest) k = if k = k' then some a else get rest k := by
  unfold get
  rw [List.lookup_cons]
  by_cases h : k = k'
  · simp [h]
  · have hne : (k == k') = false := beq_eq_false_iff_ne.mpr h
    rw [hne, if_neg h]

theorem get_put (slots : Slots κ α) (k k' : κ) (a : α) :
    get (put slots k a) k' = if k' = k then some a else get slots k' := by
  induction slots with
  | nil => exact get_cons k' k a []
  | cons item rest ih =>
    obtain ⟨key, value⟩ := item
    unfold put
    split
    next hkey =>
      subst hkey
      rw [get_cons, get_cons]
      split <;> rfl
    next hkey =>
      rw [get_cons, get_cons, ih]
      by_cases hk : k' = key
      · have hne : k' ≠ k := fun h => hkey (hk.symm.trans h)
        simp [hk, hkey]
      · simp [hk]

theorem mem_keys_put {slots : Slots κ α} {k k' : κ} {a : α} :
    k' ∈ (put slots k a).map Prod.fst ↔ k' = k ∨ k' ∈ slots.map Prod.fst := by
  induction slots with
  | nil => simp [put]
  | cons item rest ih =>
    obtain ⟨key, value⟩ := item
    unfold put
    split
    next hkey =>
      subst hkey
      simp
    next =>
      rw [List.map_cons, List.mem_cons, ih, List.map_cons, List.mem_cons]
      tauto

theorem Distinct.put {slots : Slots κ α} (h : Distinct slots) (k : κ) (a : α) :
    Distinct (Slots.put slots k a) := by
  unfold Distinct at *
  induction slots with
  | nil => simp [Slots.put]
  | cons item rest ih =>
    obtain ⟨key, value⟩ := item
    rw [List.map_cons, List.nodup_cons] at h
    unfold Slots.put
    split
    next => exact List.nodup_cons.mpr h
    next hkey =>
      refine List.nodup_cons.mpr ⟨fun hmem => ?_, ih h.2⟩
      rcases mem_keys_put.mp hmem with hsame | hmem
      · exact hkey hsame
      · exact h.1 hmem

theorem get_eq_none_iff {slots : Slots κ α} {k : κ} :
    get slots k = none ↔ k ∉ slots.map Prod.fst := by
  induction slots with
  | nil => simp [get]
  | cons item rest ih =>
    obtain ⟨key, value⟩ := item
    rw [get_cons, List.map_cons, List.mem_cons]
    by_cases hk : k = key
    · simp [hk]
    · simp [hk, ih]

omit [DecidableEq κ] in
theorem Distinct.tail {k : κ} {a : α} {rest : Slots κ α} (h : Distinct ((k, a) :: rest)) :
    Distinct rest :=
  (List.nodup_cons.mp h).2

theorem Distinct.get_tail {k : κ} {a : α} {rest : Slots κ α} (h : Distinct ((k, a) :: rest)) :
    get rest k = none :=
  get_eq_none_iff.mpr (List.nodup_cons.mp h).1

end Slots

end Questix.Lib

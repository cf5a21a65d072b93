/-
Questix.Lib.BinaryHeap — a binary heap in a list, the least key first.

Both ways through the tree carry a hole instead of swapping: the entries on the
way are moved into it, and the new entry is written once, where the hole stops.
`push_perm` and `pop_perm` say which entries there are afterwards, `pop_least` that
the entry that is taken has the least key.
-/
import Mathlib.Algebra.Order.Group.Nat
import Mathlib.Data.List.Basic
import Mathlib.Data.List.GetD

namespace Questix.Lib.BinaryHeap

variable {α κ : Type*} [Inhabited α] [LinearOrder κ] (f : α → κ)

def parent (i : ℕ) : ℕ := (i - 1) / 2

theorem parent_lt {i : ℕ} (h : 0 < i) : parent i < i := by
  unfold parent
  omega

/-- Moves the hole at `i` up until `v` may stand there. -/
def siftUp (v : α) (a : List α) (i : ℕ) : List α :=
  if _h : i = 0 then a.set i v
  else if f (a.getD (parent i) default) ≤ f v then a.set i v
  else siftUp v (a.set i (a.getD (parent i) default)) (parent i)
termination_by i
decreasing_by exact parent_lt (Nat.pos_of_ne_zero _h)

def push (a : List α) (v : α) : List α := siftUp f v (a ++ [v]) a.length

/-- The child of `i` with the lesser key. -/
def lesserChild (a : List α) (i : ℕ) : ℕ :=
  if 2 * i + 2 < a.length ∧ f (a.getD (2 * i + 2) default) < f (a.getD (2 * i + 1) default) then
    2 * i + 2
  else 2 * i + 1

theorem lesserChild_gt (a : List α) (i : ℕ) : i < lesserChild f a i := by
  unfold lesserChild
  split <;> omega

theorem lesserChild_lt {a : List α} {i : ℕ} (h : 2 * i + 1 < a.length) :
    lesserChild f a i < a.length := by
  unfold lesserChild
  split <;> omega

/-- Moves the hole at `i` down until `v` may stand there. -/
def siftDown (v : α) (a : List α) (i : ℕ) : List α :=
  if _h : 2 * i + 1 < a.length then
    if f v ≤ f (a.getD (lesserChild f a i) default) then a.set i v
    else siftDown v (a.set i (a.getD (lesserChild f a i) default)) (lesserChild f a i)
  else a.set i v
termination_by a.length - i
decreasing_by
  have := lesserChild_gt f a i
  rw [List.length_set]
  omega

def pop : List α → Option (α × List α)
  | [] => none
  | first :: rest =>
    match rest.getLast? with
    | none => some (first, [])
    | some last => some (first, siftDown f last (first :: rest.dropLast) 0)

/-! ## The entries -/

theorem set_set_perm {a : List α} {i j : ℕ} (hi : i < a.length) (hj : j < a.length) (hij : j ≠ i)
    (v : α) : ((a.set i (a.getD j default)).set j v).Perm (a.set i v) := by
  have hi' : i < (a.set i v).length := by rwa [List.length_set]
  have hj' : j < (a.set i v).length := by rwa [List.length_set]
  have hperm := List.set_set_perm hi' hj'
  rw [List.getElem_set_self, List.getElem_set_ne hij.symm, List.set_set] at hperm
  rwa [List.getD_eq_getElem _ _ hj]

theorem siftUp_perm (v : α) {a : List α} {i : ℕ} (h : i < a.length) :
    (siftUp f v a i).Perm (a.set i v) := by
  induction a, i using siftUp.induct (f := f) (v := v) with
  | case1 a =>
    rw [siftUp, dif_pos rfl]
  | case2 a i hne hle =>
    rw [siftUp, dif_neg hne, if_pos hle]
  | case3 a i hne hgt ih =>
    have hparent : parent i < i := parent_lt (Nat.pos_of_ne_zero hne)
    rw [siftUp, dif_neg hne, if_neg hgt]
    refine (ih ?_).trans (set_set_perm h (hparent.trans h) hparent.ne v)
    rw [List.length_set]
    exact hparent.trans h

theorem siftDown_perm (v : α) {a : List α} {i : ℕ} (h : i < a.length) :
    (siftDown f v a i).Perm (a.set i v) := by
  induction a, i using siftDown.induct (f := f) (v := v) with
  | case1 a i hchild hle =>
    rw [siftDown, dif_pos hchild, if_pos hle]
  | case2 a i hchild hgt ih =>
    have hlt := lesserChild_lt f hchild
    rw [siftDown, dif_pos hchild, if_neg hgt]
    refine (ih ?_).trans (set_set_perm h hlt (lesserChild_gt f a i).ne' v)
    rwa [List.length_set]
  | case3 a i hchild =>
    rw [siftDown, dif_neg hchild]

theorem push_perm (a : List α) (v : α) : (push f a v).Perm (v :: a) := by
  have hlt : a.length < (a ++ [v]).length := by
    rw [List.length_append]
    exact Nat.lt_succ_self _
  refine (siftUp_perm f v hlt).trans ?_
  rw [List.set_append_right _ _ (le_refl _), Nat.sub_self]
  exact List.perm_append_singleton v a

/-- What is left when the first entry is taken: nothing, or the last entry is sifted down from
its place. -/
theorem pop_cases {a rest : List α} {v : α} (h : pop f a = some (v, rest)) :
    a = [v] ∧ rest = [] ∨
      ∃ others last, a = v :: (others ++ [last]) ∧ rest = siftDown f last (v :: others) 0 := by
  cases a with
  | nil => cases h
  | cons first others =>
    rw [pop] at h
    cases hlast : others.getLast? with
    | none =>
      rw [hlast] at h
      cases h
      exact .inl ⟨by rw [List.getLast?_eq_none_iff.1 hlast], rfl⟩
    | some last =>
      rw [hlast] at h
      cases h
      exact .inr ⟨others.dropLast, last, by rw [List.dropLast_append_getLast? last hlast], rfl⟩

theorem pop_eq_none {a : List α} (h : pop f a = none) : a = [] := by
  cases a with
  | nil => rfl
  | cons first rest =>
    rw [pop] at h
    cases hlast : rest.getLast? with
    | none =>
      rw [hlast] at h
      cases h
    | some last =>
      rw [hlast] at h
      cases h

theorem pop_perm {a rest : List α} {v : α} (h : pop f a = some (v, rest)) :
    (v :: rest).Perm a := by
  rcases pop_cases f h with ⟨rfl, rfl⟩ | ⟨others, last, rfl, rfl⟩
  · exact .refl _
  · have hperm := siftDown_perm f last (a := v :: others) (Nat.succ_pos _)
    rw [List.set_cons_zero] at hperm
    exact (hperm.trans (List.perm_append_singleton last others).symm).cons v

/-! ## The order -/

theorem getD_set_self {a : List α} {i : ℕ} (h : i < a.length) (v : α) :
    (a.set i v).getD i default = v := by
  rw [List.getD_eq_getElem?_getD, List.getElem?_set_self h]
  rfl

theorem getD_set_of_ne {i j : ℕ} (h : j ≠ i) (a : List α) (v : α) :
    (a.set i v).getD j default = a.getD j default := by
  rw [List.getD_eq_getElem?_getD, List.getElem?_set_ne h.symm, ← List.getD_eq_getElem?_getD]

/-- No key is less than that of its parent. -/
def IsHeap (a : List α) : Prop :=
  ∀ k, 0 < k → k < a.length → f (a.getD (parent k) default) ≤ f (a.getD k default)

/-- What holds around a hole at `i`: the keys that do not touch it are in order, and those
below it are not less than the one above it. -/
structure Hole (a : List α) (i : ℕ) : Prop where
  except : ∀ k, 0 < k → k < a.length → k ≠ i → parent k ≠ i →
    f (a.getD (parent k) default) ≤ f (a.getD k default)
  grand : 0 < i → ∀ k, 0 < k → k < a.length → parent k = i →
    f (a.getD (parent i) default) ≤ f (a.getD k default)

variable {f} {a : List α} {i : ℕ} {v : α}

/-- The hole is filled by an entry that is between its neighbours. -/
theorem Hole.fill (h : Hole f a i) (hi : i < a.length)
    (habove : 0 < i → f (a.getD (parent i) default) ≤ f v)
    (hbelow : ∀ k, 0 < k → k < a.length → parent k = i → f v ≤ f (a.getD k default)) :
    IsHeap f (a.set i v) := by
  intro k hk hlen
  rw [List.length_set] at hlen
  by_cases hki : k = i
  · subst hki
    rw [getD_set_self hi, getD_set_of_ne (parent_lt hk).ne]
    exact habove hk
  · rw [getD_set_of_ne hki]
    by_cases hpi : parent k = i
    · rw [hpi, getD_set_self hi]
      exact hbelow k hk hlen hpi
    · rw [getD_set_of_ne hpi]
      exact h.except k hk hlen hki hpi

/-- The hole moves up. -/
theorem Hole.up (h : Hole f a i) (hpos : 0 < i) (hi : i < a.length) :
    Hole f (a.set i (a.getD (parent i) default)) (parent i) where
  except := by
    intro k hk hlen _ hparent
    rw [List.length_set] at hlen
    have hki : k ≠ i := fun heq => hparent (congrArg parent heq)
    rw [getD_set_of_ne hki]
    by_cases hpi : parent k = i
    · rw [hpi, getD_set_self hi]
      exact h.grand hpos k hk hlen hpi
    · rw [getD_set_of_ne hpi]
      exact h.except k hk hlen hki hpi
  grand := by
    intro hparent k hk hlen hkp
    rw [List.length_set] at hlen
    have hlt := parent_lt hpos
    have hup := parent_lt hparent
    have habove := h.except (parent i) hparent (hlt.trans hi) hlt.ne (hup.trans hlt).ne
    rw [getD_set_of_ne (hup.trans hlt).ne]
    by_cases hki : k = i
    · subst hki
      rw [getD_set_self hi]
      exact habove
    · rw [getD_set_of_ne hki]
      have hside := h.except k hk hlen hki (hkp ▸ hlt.ne)
      rw [hkp] at hside
      exact habove.trans hside

theorem isHeap_siftUp (h : Hole f a i) (hi : i < a.length)
    (hbelow : ∀ k, 0 < k → k < a.length → parent k = i → f v ≤ f (a.getD k default)) :
    IsHeap f (siftUp f v a i) := by
  induction a, i using siftUp.induct (f := f) (v := v) with
  | case1 a =>
    rw [siftUp, dif_pos rfl]
    exact h.fill hi (fun hpos => absurd rfl hpos.ne) hbelow
  | case2 a i hne hle =>
    rw [siftUp, dif_neg hne, if_pos hle]
    exact h.fill hi (fun _ => hle) hbelow
  | case3 a i hne hgt ih =>
    have hpos := Nat.pos_of_ne_zero hne
    have hlt := parent_lt hpos
    rw [siftUp, dif_neg hne, if_neg hgt]
    refine ih (h.up hpos hi) ?_ ?_
    · rw [List.length_set]
      exact hlt.trans hi
    · intro k hk hlen hkp
      rw [List.length_set] at hlen
      by_cases hki : k = i
      · subst hki
        rw [getD_set_self hi]
        exact (not_le.1 hgt).le
      · rw [getD_set_of_ne hki]
        have hside := h.except k hk hlen hki (hkp ▸ hlt.ne)
        rw [hkp] at hside
        exact (not_le.1 hgt).le.trans hside

theorem isHeap_push (h : IsHeap f a) : IsHeap f (push f a v) := by
  have hlen : (a ++ [v]).length = a.length + 1 := List.length_append
  have hold : ∀ k, k < a.length → (a ++ [v]).getD k default = a.getD k default :=
    fun k hk => List.getD_append _ _ _ _ hk
  refine isHeap_siftUp ⟨?_, ?_⟩ (by omega) ?_
  · intro k hk hlt hne _
    have hlt' : k < a.length := by omega
    rw [hold k hlt', hold _ ((parent_lt hk).trans hlt')]
    exact h k hk hlt'
  · intro _ k hk hlt hkp
    have := parent_lt hk
    omega
  · intro k hk hlt hkp
    have := parent_lt hk
    omega

theorem lesserChild_le {k : ℕ} (hk : 0 < k) (hlen : k < a.length) (hki : parent k = i) :
    f (a.getD (lesserChild f a i) default) ≤ f (a.getD k default) := by
  have hcases : k = 2 * i + 1 ∨ k = 2 * i + 2 := by
    unfold parent at hki
    omega
  unfold lesserChild
  split
  · rename_i hsecond
    rcases hcases with rfl | rfl
    · exact hsecond.2.le
    · exact le_refl _
  · rename_i hfirst
    rcases hcases with rfl | rfl
    · exact le_refl _
    · exact not_lt.1 fun hlt => hfirst ⟨hlen, hlt⟩

theorem parent_lesserChild : parent (lesserChild f a i) = i := by
  unfold lesserChild parent
  split <;> omega

/-- The hole moves down to the lesser child. -/
theorem Hole.down (h : Hole f a i) (hchild : 2 * i + 1 < a.length) :
    Hole f (a.set i (a.getD (lesserChild f a i) default)) (lesserChild f a i) where
  except := by
    intro k hk hlen hkc _
    rw [List.length_set] at hlen
    have hi : i < a.length := (lesserChild_gt f a i).trans (lesserChild_lt f hchild)
    by_cases hki : k = i
    · subst hki
      rw [getD_set_self hi, getD_set_of_ne (parent_lt hk).ne]
      exact h.grand hk _ (Nat.zero_lt_of_lt (lesserChild_gt f a k)) (lesserChild_lt f hchild)
        parent_lesserChild
    · rw [getD_set_of_ne hki]
      by_cases hpi : parent k = i
      · rw [hpi, getD_set_self hi]
        exact lesserChild_le hk hlen hpi
      · rw [getD_set_of_ne hpi]
        exact h.except k hk hlen hki hpi
  grand := by
    intro _ k hk hlen hkc
    rw [List.length_set] at hlen
    have hgt := lesserChild_gt f a i
    have hck := parent_lt hk
    rw [hkc] at hck
    rw [parent_lesserChild, getD_set_self (hgt.trans (lesserChild_lt f hchild)),
      getD_set_of_ne (hgt.trans hck).ne']
    have hside := h.except k hk hlen (hgt.trans hck).ne' (hkc ▸ hgt.ne')
    rwa [hkc] at hside

theorem isHeap_siftDown (h : Hole f a i) (hi : i < a.length)
    (habove : 0 < i → f (a.getD (parent i) default) ≤ f v) : IsHeap f (siftDown f v a i) := by
  induction a, i using siftDown.induct (f := f) (v := v) with
  | case1 a i hchild hle =>
    rw [siftDown, dif_pos hchild, if_pos hle]
    exact h.fill hi habove fun k hk hlen hki => hle.trans (lesserChild_le hk hlen hki)
  | case2 a i hchild hgt ih =>
    rw [siftDown, dif_pos hchild, if_neg hgt]
    refine ih (h.down hchild) ?_ fun _ => ?_
    · rw [List.length_set]
      exact lesserChild_lt f hchild
    · rw [parent_lesserChild, getD_set_self hi]
      exact (not_le.1 hgt).le
  | case3 a i hchild =>
    rw [siftDown, dif_neg hchild]
    refine h.fill hi habove fun k hk hlen hki => ?_
    unfold parent at hki
    omega

theorem isHeap_pop {rest : List α} (h : IsHeap f a) (hpop : pop f a = some (v, rest)) :
    IsHeap f rest := by
  rcases pop_cases f hpop with ⟨rfl, rfl⟩ | ⟨others, last, rfl, rfl⟩
  · exact fun k _ hlen => absurd hlen (Nat.not_lt_zero k)
  · have hlen : (v :: (others ++ [last])).length = (v :: others).length + 1 := by
      rw [← List.cons_append, List.length_append, List.length_singleton]
    have hold : ∀ k, k < (v :: others).length →
        (v :: (others ++ [last])).getD k default = (v :: others).getD k default := by
      intro k hk
      rw [← List.cons_append]
      exact List.getD_append _ _ _ _ hk
    refine isHeap_siftDown ⟨?_, fun hpos => absurd rfl hpos.ne⟩ (Nat.succ_pos _)
      fun hpos => absurd rfl hpos.ne
    intro k hk hlt _ _
    rw [← hold k hlt, ← hold _ ((parent_lt hk).trans hlt)]
    exact h k hk (hlen ▸ Nat.lt_succ_of_lt hlt)

theorem IsHeap.first_le (h : IsHeap f a) (k : ℕ) (hk : k < a.length) :
    f (a.getD 0 default) ≤ f (a.getD k default) := by
  induction k using Nat.strong_induction_on with
  | _ k ih =>
    rcases Nat.eq_zero_or_pos k with rfl | hpos
    · exact le_refl _
    · have hlt := parent_lt hpos
      exact (ih _ hlt (hlt.trans hk)).trans (h k hpos hk)

theorem pop_least {rest : List α} (h : IsHeap f a) (hpop : pop f a = some (v, rest)) {u : α}
    (hu : u ∈ a) : f v ≤ f u := by
  obtain ⟨k, hk, rfl⟩ := List.getElem_of_mem hu
  have hle := h.first_le k hk
  rw [List.getD_eq_getElem _ _ hk] at hle
  have hfirst : a.getD 0 default = v := by
    rcases pop_cases f hpop with ⟨rfl, -⟩ | ⟨others, last, rfl, -⟩
    · rfl
    · rfl
  rwa [hfirst] at hle

end Questix.Lib.BinaryHeap

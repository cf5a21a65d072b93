/-
Questix.LabPage.LaunchEstimate — the output that reaches a distance, from recorded
launches (`launchGroups`, `estimateObstacle` and `launchEstimate` of
`launch/core.js`).

Distances and outputs are exact. The map of the source is a list of its entries in
the order in which they were set. What an estimate says is compared with the rows
themselves: the outputs they name and the mean distance at each (`outputs`,
`meanAt`), and the curve that joins these points (`Lib.Piecewise`).
-/
import Mathlib.Algebra.Order.BigOperators.Group.List
import Mathlib.Data.Finset.Sort
import Mathlib.Data.List.Chain
import Mathlib.Data.List.Perm.Basic
import Mathlib.Data.Rat.Defs
import Questix.Lib.Piecewise

namespace Questix.LabPage.Launch

open Questix.Lib.Piecewise

/-! ## `launch/core.js` -/

def MAX_POWER : ℚ := 100
def MAX_RANGE : ℚ := 30

/-- A recorded launch. -/
structure Row where
  power : ℚ
  range : ℚ

/-- The launches at one output. -/
structure Group where
  power : ℚ
  mean : ℚ
  min : ℚ
  max : ℚ
  count : ℕ
  deriving DecidableEq

def Row.refused (row : Row) : Prop :=
  row.power < 0 ∨ MAX_POWER < row.power ∨ row.range < 0 ∨ MAX_RANGE < row.range

instance (row : Row) : Decidable row.refused := inferInstanceAs (Decidable (_ ∨ _))

/-- A row goes to the entry of its output, which is set first where there is none. -/
def push (rangesByPower : List (ℚ × List ℚ)) (row : Row) : List (ℚ × List ℚ) :=
  let entries :=
    if rangesByPower.any fun e => e.1 = row.power then rangesByPower
    else rangesByPower ++ [(row.power, [])]
  entries.map fun e => if e.1 = row.power then (e.1, e.2 ++ [row.range]) else e

def groupOf (e : ℚ × List ℚ) : Group where
  power := e.1
  mean := e.2.foldl (· + ·) 0 / e.2.length
  min := e.2.min?.getD 0
  max := e.2.max?.getD 0
  count := e.2.length

def launchGroups (rows : List Row) : Except String (List Group) := do
  let rangesByPower ← rows.foldlM (fun entries row =>
    if row.refused then .error "出力0〜100%、飛距離0〜30 mの数値を入力してください。"
    else .ok (push entries row)) []
  return (rangesByPower.mergeSort fun a b => decide (a.1 ≤ b.1)).map groupOf

/-- Two groups that follow each other, the later with no larger mean. -/
def stalls (groups : List Group) : Bool :=
  (groups.zip groups.tail).any fun (previous, group) => decide (group.mean ≤ previous.mean)

def estimateObstacle (groups : List Group) (target : ℚ) : Option String :=
  if target ≤ 0 ∨ MAX_RANGE < target then
    some "狙う距離は0より大きく、30 m以下で入力してください。"
  else if groups.length < 2 then
    some "異なる出力で2種類以上の記録が必要です。まず小さい出力と大きい出力で測ってください。"
  else if stalls groups then
    some "出力を増やしても平均の飛距離が増えていない区間があります。同じ出力でもう数枚測り、条件が変わっていないか確かめてください。"
  else if (groups.head?.any fun group => decide (target < group.mean)) ||
      groups.getLast?.any fun group => decide (group.mean < target) then
    some "狙う距離をはさむ測定値がありません。測定した範囲の外には予測を延ばしません。"
  else none

/-- What `launchEstimate` comes to; `thrown` is an error that is thrown. -/
inductive Estimate where
  | thrown (message : String)
  | refused (message : String) (groups : List Group)
  | found (power : ℚ) (low high : Group) (groups : List Group) (message : String)
  deriving DecidableEq

/-- The groups on the two sides of the target. -/
def bracket (groups : List Group) (target : ℚ) : Option (Group × Group) := do
  -- `-1` is less than 1 as well
  let upperIndex := max 1 ((groups.findIdx? fun group => decide (target ≤ group.mean)).getD 0)
  let low ← groups[upperIndex - 1]?
  let high ← groups[upperIndex]?
  return (low, high)

def foundMessage : String :=
  "両側の測定値の間から求めた候補です。次の1枚で届くか確かめてください。"

def launchEstimate (rows : List Row) (target : ℚ) : Estimate :=
  match launchGroups rows with
  | .error message => .thrown message
  | .ok groups =>
    match estimateObstacle groups target with
    | some obstacle => .refused obstacle groups
    | none =>
      match bracket groups target with
      | none => .thrown "Cannot read properties of undefined"
      | some (low, high) =>
        let power :=
          low.power + (high.power - low.power) * (target - low.mean) / (high.mean - low.mean)
        .found power low high groups foundMessage

/-! ## What the rows say -/

def Accepted (rows : List Row) : Prop := ∀ row ∈ rows, ¬ row.refused

def outputs (rows : List Row) : Finset ℚ := (rows.map Row.power).toFinset

/-- The distances at one output, in the order of the rows. -/
def rangesAt (rows : List Row) (power : ℚ) : List ℚ :=
  (rows.filter fun row => row.power = power).map Row.range

def meanAt (rows : List Row) (power : ℚ) : ℚ :=
  (rangesAt rows power).sum / (rangesAt rows power).length

def groupAt (rows : List Row) (power : ℚ) : Group := groupOf (power, rangesAt rows power)

/-- The groups of the outputs, in their order. -/
def groupsOf (rows : List Row) : List Group := ((outputs rows).sort (· ≤ ·)).map (groupAt rows)

theorem groupAt_mean (rows : List Row) (power : ℚ) :
    (groupAt rows power).mean = meanAt rows power := by
  unfold meanAt
  rw [List.sum_eq_foldl]
  rfl

/-- The entries after some rows. -/
structure Collected (rows : List Row) (entries : List (ℚ × List ℚ)) : Prop where
  nodup : (entries.map Prod.fst).Nodup
  keys : ∀ power, power ∈ entries.map Prod.fst ↔ power ∈ outputs rows
  values : ∀ e ∈ entries, e.2 = rangesAt rows e.1

theorem collected_nil : Collected [] [] where
  nodup := .nil
  keys := fun _ => Iff.rfl
  values := fun _ he => absurd he List.not_mem_nil

theorem rangesAt_append (rows : List Row) (row : Row) (power : ℚ) :
    rangesAt (rows ++ [row]) power
      = rangesAt rows power ++ if row.power = power then [row.range] else [] := by
  unfold rangesAt
  rw [List.filter_append, List.map_append, List.filter_singleton]
  by_cases h : row.power = power
  · rw [if_pos h, decide_eq_true h]
    rfl
  · rw [if_neg h, decide_eq_false h]
    rfl

theorem mem_outputs {rows : List Row} {power : ℚ} :
    power ∈ outputs rows ↔ ∃ row ∈ rows, row.power = power := by
  unfold outputs
  rw [List.mem_toFinset, List.mem_map]

theorem rangesAt_eq_nil {rows : List Row} {power : ℚ} (h : power ∉ outputs rows) :
    rangesAt rows power = [] := by
  unfold rangesAt
  rw [List.map_eq_nil_iff, List.filter_eq_nil_iff]
  exact fun row hrow hpower => h (mem_outputs.2 ⟨row, hrow, of_decide_eq_true hpower⟩)

theorem outputs_append (rows : List Row) (row : Row) (power : ℚ) :
    power ∈ outputs (rows ++ [row]) ↔ power ∈ outputs rows ∨ power = row.power := by
  unfold outputs
  rw [List.map_append, List.toFinset_append, Finset.mem_union, List.map_singleton,
    List.mem_toFinset (l := [row.power]), List.mem_singleton]

theorem collected_push {rows : List Row} {entries : List (ℚ × List ℚ)} (h : Collected rows entries)
    (row : Row) : Collected (rows ++ [row]) (push entries row) := by
  -- the entry of the output is there before the distance is added
  obtain ⟨entries', hpush, hnodup, hkeys, hvalues⟩ : ∃ entries' : List (ℚ × List ℚ),
      push entries row
        = entries'.map (fun e => if e.1 = row.power then (e.1, e.2 ++ [row.range]) else e) ∧
      (entries'.map Prod.fst).Nodup ∧
      (∀ power, power ∈ entries'.map Prod.fst ↔ power ∈ outputs (rows ++ [row])) ∧
      ∀ e ∈ entries', e.2 = rangesAt rows e.1 := by
    have hany : (entries.any fun e => e.1 = row.power) = true ↔ row.power ∈ outputs rows := by
      rw [← h.keys, List.any_eq_true, List.mem_map]
      exact exists_congr fun e => and_congr_right fun _ => decide_eq_true_iff
    by_cases hthere : row.power ∈ outputs rows
    · refine ⟨entries, congrArg _ (if_pos (hany.2 hthere)), h.nodup, fun power => ?_, h.values⟩
      rw [h.keys, outputs_append]
      exact ⟨.inl, fun hpower => hpower.elim id fun heq => heq ▸ hthere⟩
    · refine ⟨entries ++ [(row.power, [])], congrArg _ (if_neg (mt hany.1 hthere)), ?_,
        fun power => ?_, fun e he => ?_⟩
      · rw [List.map_append, List.map_singleton]
        refine h.nodup.append (List.nodup_singleton _) fun power hpower hpower' => ?_
        rw [List.mem_singleton.1 hpower', h.keys] at hpower
        exact hthere hpower
      · rw [List.map_append, List.mem_append, h.keys, outputs_append, List.map_singleton,
          List.mem_singleton]
      · rcases List.mem_append.1 he with he | he
        · exact h.values e he
        · rw [List.mem_singleton.1 he]
          exact (rangesAt_eq_nil hthere).symm
  have hfst : (push entries row).map Prod.fst = entries'.map Prod.fst := by
    rw [hpush, List.map_map]
    refine List.map_congr_left fun e _ => ?_
    show (if e.1 = row.power then (e.1, e.2 ++ [row.range]) else e).1 = e.1
    split <;> rfl
  refine ⟨hfst ▸ hnodup, fun power => hfst ▸ hkeys power, fun e he => ?_⟩
  rw [hpush] at he
  obtain ⟨e', he', rfl⟩ := List.mem_map.1 he
  split
  · rename_i hpower
    rw [rangesAt_append, if_pos hpower.symm, ← hvalues e' he']
  · rename_i hpower
    rw [rangesAt_append, if_neg (Ne.symm hpower), List.append_nil]
    exact hvalues e' he'

theorem foldlM_rows (rows done : List Row) (entries : List (ℚ × List ℚ))
    (h : Collected done entries) (hrows : Accepted rows) :
    ∃ entries', rows.foldlM (fun entries row =>
        if row.refused then Except.error "出力0〜100%、飛距離0〜30 mの数値を入力してください。"
        else .ok (push entries row)) entries = .ok entries' ∧
      Collected (done ++ rows) entries' := by
  induction rows generalizing done entries with
  | nil => exact ⟨entries, rfl, by rwa [List.append_nil]⟩
  | cons row rows ih =>
    obtain ⟨entries', hrun, hcollected⟩ := ih (done ++ [row]) (push entries row)
      (collected_push h row) fun r hr => hrows r (List.mem_cons_of_mem row hr)
    rw [List.append_assoc, List.singleton_append] at hcollected
    refine ⟨entries', ?_, hcollected⟩
    rw [List.foldlM_cons, if_neg (hrows row List.mem_cons_self)]
    exact hrun

/-- The groups are those of the outputs, in their order. -/
theorem launchGroups_eq {rows : List Row} (h : Accepted rows) :
    launchGroups rows = .ok (groupsOf rows) := by
  obtain ⟨entries, hrun, hcollected⟩ := foldlM_rows rows [] [] collected_nil h
  rw [List.nil_append] at hcollected
  have hperm := List.mergeSort_perm entries fun a b => decide (a.1 ≤ b.1)
  have hsorted : ((entries.mergeSort fun a b => decide (a.1 ≤ b.1)).map Prod.fst)
      = (outputs rows).sort := by
    have hkeys : ((entries.mergeSort fun a b => decide (a.1 ≤ b.1)).map Prod.fst).Perm
        (outputs rows).sort := by
      refine (hperm.map Prod.fst).trans ((List.perm_ext_iff_of_nodup hcollected.nodup
        (Finset.sort_nodup ..)).2 fun power => ?_)
      rw [hcollected.keys, Finset.mem_sort]
    refine hkeys.eq_of_pairwise' ?_ (Finset.pairwise_sort (outputs rows) (· ≤ ·))
    refine List.pairwise_map.2 ((List.pairwise_mergeSort ?_ ?_ entries).imp of_decide_eq_true)
    · intro a b c hab hbc
      exact decide_eq_true ((of_decide_eq_true hab).trans (of_decide_eq_true hbc))
    · intro a b
      rw [Bool.or_eq_true, decide_eq_true_iff, decide_eq_true_iff]
      exact le_total a.1 b.1
  have hgroups : (entries.mergeSort fun a b => decide (a.1 ≤ b.1)).map groupOf
      = groupsOf rows := by
    unfold groupsOf
    rw [← hsorted, List.map_map]
    refine List.map_congr_left fun e he => ?_
    have hvalue := hcollected.values e (hperm.mem_iff.1 he)
    show groupOf e = groupOf (e.1, rangesAt rows e.1)
    rw [← hvalue]
  unfold launchGroups
  rw [hrun]
  exact congrArg Except.ok hgroups

/-! ## What is refused -/

variable {rows : List Row} {target : ℚ}

theorem stalls_eq_false (groups : List Group) :
    stalls groups = false ↔ groups.IsChain fun a b => a.mean < b.mean := by
  induction groups with
  | nil => exact iff_of_true rfl .nil
  | cons a groups ih =>
    cases groups with
    | nil => exact iff_of_true rfl (.singleton a)
    | cons b groups =>
      have hfirst : stalls (a :: b :: groups)
          = (decide (b.mean ≤ a.mean) || stalls (b :: groups)) := rfl
      rw [hfirst, Bool.or_eq_false_iff, ih, decide_eq_false_iff_not, not_le,
        List.isChain_cons_cons]

theorem stalls_groups (rows : List Row) :
    stalls (groupsOf rows) = false
      ↔ StrictMonoOn (meanAt rows) (outputs rows : Set ℚ) := by
  have hsorted : (outputs rows).sort.Pairwise (· < ·) := (Finset.sortedLT_sort _).pairwise
  have hmeans : (groupsOf rows).IsChain (fun a b => a.mean < b.mean)
      ↔ (outputs rows).sort.Pairwise fun p q => meanAt rows p < meanAt rows q := by
    unfold groupsOf
    rw [List.isChain_map]
    simp only [groupAt_mean]
    rw [← List.isChain_map (R := (· < ·)) (meanAt rows), List.isChain_iff_pairwise,
      List.pairwise_map]
  rw [stalls_eq_false, hmeans]
  constructor
  · intro h p hp q hq hpq
    have hforward : (outputs rows).sort.Pairwise
        fun p q => p < q → meanAt rows p < meanAt rows q := by
      refine h.imp ?_
      exact fun hmean _ => hmean
    have hbackward : (outputs rows).sort.Pairwise
        (flip fun p q => p < q → meanAt rows p < meanAt rows q) :=
      hsorted.imp fun hlt hgt => absurd hgt hlt.not_gt
    exact hforward.forall_of_forall_of_flip (fun p _ hlt => absurd hlt (lt_irrefl p)) hbackward
      ((Finset.mem_sort (· ≤ ·)).2 hp) ((Finset.mem_sort (· ≤ ·)).2 hq) hpq
  · intro h
    refine hsorted.imp_of_mem fun hp hq hpq => ?_
    exact h ((Finset.mem_sort (· ≤ ·)).1 hp) ((Finset.mem_sort (· ≤ ·)).1 hq) hpq

theorem ends_outputs (h : (outputs rows).sort ≠ []) :
    (∃ p ∈ outputs rows, (outputs rows).sort.head? = some p ∧ ∀ q ∈ outputs rows, p ≤ q) ∧
      ∃ p ∈ outputs rows, (outputs rows).sort.getLast? = some p ∧ ∀ q ∈ outputs rows, q ≤ p := by
  have hsorted : (outputs rows).sort.Pairwise (· ≤ ·) := Finset.pairwise_sort _ _
  have hmem {p : ℚ} : p ∈ (outputs rows).sort (· ≤ ·) ↔ p ∈ outputs rows :=
    Finset.mem_sort (· ≤ ·)
  constructor
  · refine ⟨_, hmem.1 (List.head_mem h), List.head?_eq_some_head h, fun q hq => ?_⟩
    exact hsorted.rel_head (hmem.2 hq)
  · refine ⟨_, hmem.1 (List.getLast_mem h), List.getLast?_eq_some_getLast h, fun q hq => ?_⟩
    exact hsorted.rel_getLast (hmem.2 hq)

theorem outside_groups (hsize : 2 ≤ (outputs rows).card)
    (hmono : StrictMonoOn (meanAt rows) (outputs rows : Set ℚ)) :
    (((groupsOf rows).head?.any fun group =>
          decide (target < group.mean)) ||
        (groupsOf rows).getLast?.any fun group =>
          decide (group.mean < target)) = false
      ↔ (∃ p ∈ outputs rows, meanAt rows p ≤ target) ∧
        ∃ p ∈ outputs rows, target ≤ meanAt rows p := by
  have hne : (outputs rows).sort ≠ [] := by
    rw [← List.length_pos_iff, Finset.length_sort]
    omega
  obtain ⟨⟨first, hfirst, hhead, hleast⟩, last, hlast, hend, hgreatest⟩ := ends_outputs hne
  unfold groupsOf
  rw [List.head?_map, List.getLast?_map, hhead, hend, Bool.or_eq_false_iff]
  refine and_congr ?_ ?_
  · show decide (target < (groupAt rows first).mean) = false ↔ _
    rw [decide_eq_false_iff_not, not_lt, groupAt_mean]
    constructor
    · exact fun h => ⟨first, hfirst, h⟩
    · rintro ⟨p, hp, hle⟩
      exact (hmono.monotoneOn hfirst hp (hleast p hp)).trans hle
  · show decide ((groupAt rows last).mean < target) = false ↔ _
    rw [decide_eq_false_iff_not, not_lt, groupAt_mean]
    constructor
    · exact fun h => ⟨last, hlast, h⟩
    · rintro ⟨p, hp, hle⟩
      exact hle.trans (hmono.monotoneOn hp hlast (hgreatest p hp))

theorem meanAt_le (h : Accepted rows) {power : ℚ} (hpower : power ∈ outputs rows) :
    meanAt rows power ≤ MAX_RANGE := by
  have hle : ∀ range ∈ rangesAt rows power, range ≤ MAX_RANGE := by
    intro range hrange
    obtain ⟨row, hrow, rfl⟩ := List.mem_map.1 hrange
    have hrow' := h row (List.mem_filter.1 hrow).1
    exact not_lt.1 fun hgt => hrow' (.inr (.inr (.inr hgt)))
  have hpos : 0 < (rangesAt rows power).length := by
    obtain ⟨row, hrow, hat⟩ := mem_outputs.1 hpower
    exact List.length_pos_of_mem
      (List.mem_map.2 ⟨row, List.mem_filter.2 ⟨hrow, decide_eq_true hat⟩, rfl⟩)
  have hsum := List.sum_le_card_nsmul (rangesAt rows power) MAX_RANGE hle
  rw [nsmul_eq_mul, mul_comm] at hsum
  unfold meanAt
  rwa [div_le_iff₀ (by exact_mod_cast hpos)]

/-- What a target has to be so that there is an answer. -/
structure Answerable (rows : List Row) (target : ℚ) : Prop where
  positive : 0 < target
  several : 2 ≤ (outputs rows).card
  increasing : StrictMonoOn (meanAt rows) (outputs rows : Set ℚ)
  above : ∃ p ∈ outputs rows, meanAt rows p ≤ target
  below : ∃ p ∈ outputs rows, target ≤ meanAt rows p

theorem estimateObstacle_eq_none (h : Accepted rows) :
    estimateObstacle (groupsOf rows) target = none
      ↔ Answerable rows target := by
  have hlength : (groupsOf rows).length = (outputs rows).card := by
    unfold groupsOf
    rw [List.length_map, Finset.length_sort]
  unfold estimateObstacle
  rw [hlength]
  constructor
  · intro hnone
    split at hnone
    · cases hnone
    · rename_i hrange
      split at hnone
      · cases hnone
      · rename_i hsize
        split at hnone
        · cases hnone
        · rename_i hstalls
          have hmono := (stalls_groups rows).1 (Bool.not_eq_true _ ▸ hstalls)
          split at hnone
          · cases hnone
          · rename_i houtside
            obtain ⟨habove, hbelow⟩ := (outside_groups (not_lt.1 hsize) hmono).1
              (Bool.not_eq_true _ ▸ houtside)
            exact ⟨not_le.1 fun hle => hrange (.inl hle), not_lt.1 hsize, hmono, habove, hbelow⟩
  · rintro ⟨hpos, hsize, hmono, habove, hbelow⟩
    have hrange : ¬ (target ≤ 0 ∨ MAX_RANGE < target) := by
      obtain ⟨p, hp, hle⟩ := hbelow
      rintro (hle' | hgt)
      · exact absurd hpos hle'.not_gt
      · exact absurd (hle.trans (meanAt_le h hp)) hgt.not_ge
    have hstalls := (stalls_groups rows).2 hmono
    have houtside := (outside_groups hsize hmono).2 ⟨habove, hbelow⟩
    rw [if_neg hrange, if_neg hsize.not_gt, hstalls, houtside]
    rfl

/-! ## What is found -/

theorem getElem?_sort {s : Finset ℚ} {i : ℕ} (h : i < s.card) : ∃ a, s.sort[i]? = some a :=
  ⟨_, List.getElem?_eq_getElem (by rwa [Finset.length_sort])⟩

theorem getElem?_groupsOf (rows : List Row) (i : ℕ) :
    (groupsOf rows)[i]? = (outputs rows).sort[i]?.map (groupAt rows) := List.getElem?_map ..

/-- The groups on the two sides are those of neighbouring outputs. -/
theorem bracket_groups (h : Answerable rows target) :
    ∃ a b, Neighbours (outputs rows : Set ℚ) a b ∧ meanAt rows a ≤ target ∧
      target ≤ meanAt rows b ∧
      bracket (groupsOf rows) target
        = some (groupAt rows a, groupAt rows b) := by
  obtain ⟨-, hsize, hmono, ⟨p, hp, hbelow⟩, q, hq, habove⟩ := h
  -- the first mean that the target does not exceed
  obtain ⟨k, hk⟩ : ∃ k, (groupsOf rows).findIdx? (fun group => decide (target ≤ group.mean))
      = some k := by
    rw [← Option.isSome_iff_exists, List.findIdx?_isSome, List.any_eq_true]
    refine ⟨groupAt rows q, List.mem_map_of_mem ((Finset.mem_sort (· ≤ ·)).2 hq), ?_⟩
    rw [groupAt_mean]
    exact decide_eq_true habove
  obtain ⟨hlt, hreaches, hfirst⟩ := List.findIdx?_eq_some_iff_getElem.1 hk
  have hcard : k < (outputs rows).card := by
    unfold groupsOf at hlt
    rwa [List.length_map, Finset.length_sort] at hlt
  have hmean (i : ℕ) (a : ℚ) (ha : (outputs rows).sort[i]? = some a)
      (hi : i < (groupsOf rows).length) : (groupsOf rows)[i].mean = meanAt rows a := by
    have hget := getElem?_groupsOf rows i
    rw [ha, List.getElem?_eq_getElem hi] at hget
    rw [Option.some.inj hget, groupAt_mean]
  have hpair (i : ℕ) (a b : ℚ) (ha : (outputs rows).sort[i]? = some a)
      (hb : (outputs rows).sort[i + 1]? = some b) (hi : max 1 k = i + 1) :
      bracket (groupsOf rows) target = some (groupAt rows a, groupAt rows b) := by
    unfold bracket
    rw [hk, Option.getD_some, hi]
    dsimp only
    rw [Nat.add_sub_cancel, getElem?_groupsOf, getElem?_groupsOf, ha, hb]
    rfl
  cases k with
  | zero =>
    obtain ⟨a, ha⟩ := getElem?_sort (s := outputs rows) (i := 0) (by omega)
    obtain ⟨b, hb⟩ := getElem?_sort (s := outputs rows) (i := 1) (by omega)
    have hab := neighbours_sort ha hb
    have hleast : a ≤ p := by
      have hne : (outputs rows).sort ≠ [] := fun hnil => by rw [hnil] at ha; cases ha
      obtain ⟨⟨first, -, hfirst', hle⟩, -⟩ := ends_outputs hne
      rw [List.head?_eq_getElem?, ha] at hfirst'
      obtain rfl := Option.some.inj hfirst'
      exact hle p hp
    rw [hmean 0 a ha, decide_eq_true_iff] at hreaches
    exact ⟨a, b, hab, (hmono.monotoneOn hab.left hp hleast).trans hbelow,
      hreaches.trans (hmono hab.left hab.right hab.lt).le, hpair 0 a b ha hb rfl⟩
  | succ i =>
    obtain ⟨a, ha⟩ := getElem?_sort (s := outputs rows) (i := i) (by omega)
    obtain ⟨b, hb⟩ := getElem?_sort (s := outputs rows) (i := i + 1) hcard
    have hnot := hfirst i (Nat.lt_succ_self i)
    rw [hmean i a ha, decide_eq_true_iff, not_le] at hnot
    rw [hmean (i + 1) b hb, decide_eq_true_iff] at hreaches
    exact ⟨a, b, neighbours_sort ha hb, hnot.le, hreaches,
      hpair i a b ha hb (Nat.max_eq_right (Nat.le_add_left 1 i))⟩

/-- The curve through the points `(output, mean distance)`. -/
def Curve (rows : List Row) (power range : ℚ) : Prop :=
  OnCurve (outputs rows : Set ℚ) (meanAt rows) power range

/-- What an answer is. -/
structure Answers (rows : List Row) (target : ℚ) (power : ℚ) (low high : Group) : Prop where
  neighbours : Neighbours (outputs rows : Set ℚ) low.power high.power
  groups : low = groupAt rows low.power ∧ high = groupAt rows high.power
  between : low.power ≤ power ∧ power ≤ high.power
  onCurve : Curve rows power target

theorem launchEstimate_found (h : Accepted rows) (hanswer : Answerable rows target) :
    ∃ power low high, launchEstimate rows target
        = .found power low high (groupsOf rows) foundMessage ∧
      Answers rows target power low high := by
  obtain ⟨a, b, hab, hlow, hhigh, hbracket⟩ := bracket_groups hanswer
  obtain ⟨honCurve, hle, hge⟩ := onCurve_place hab
    (hanswer.increasing hab.left hab.right hab.lt) hlow hhigh
  refine ⟨place (meanAt rows) a b target, groupAt rows a, groupAt rows b, ?_,
    hab, ⟨rfl, rfl⟩, ⟨hle, hge⟩, honCurve⟩
  unfold launchEstimate
  rw [launchGroups_eq h]
  dsimp only
  rw [(estimateObstacle_eq_none h).2 hanswer]
  dsimp only
  rw [hbracket]
  dsimp only
  rw [groupAt_mean, groupAt_mean]
  rfl

theorem launchEstimate_refused (h : Accepted rows) (hanswer : ¬ Answerable rows target) :
    ∃ message, launchEstimate rows target
      = .refused message (groupsOf rows) := by
  obtain ⟨message, hobstacle⟩ := Option.ne_none_iff_exists'.1
    (mt (estimateObstacle_eq_none h).1 hanswer)
  refine ⟨message, ?_⟩
  unfold launchEstimate
  rw [launchGroups_eq h]
  dsimp only
  rw [hobstacle]

/-! ## The order of the rows -/

theorem min?_perm {l l' : List ℚ} (h : l.Perm l') : l.min? = l'.min? := by
  refine Option.ext fun a => ?_
  rw [List.min?_eq_some_iff, List.min?_eq_some_iff, h.mem_iff]
  exact and_congr_right fun _ => forall_congr' fun b => imp_congr_left h.mem_iff

theorem max?_perm {l l' : List ℚ} (h : l.Perm l') : l.max? = l'.max? := by
  refine Option.ext fun a => ?_
  rw [List.max?_eq_some_iff, List.max?_eq_some_iff, h.mem_iff]
  exact and_congr_right fun _ => forall_congr' fun b => imp_congr_left h.mem_iff

theorem groupAt_perm {rows' : List Row} (h : rows.Perm rows') (power : ℚ) :
    groupAt rows power = groupAt rows' power := by
  have hranges : (rangesAt rows power).Perm (rangesAt rows' power) := (h.filter _).map _
  unfold groupAt groupOf
  rw [← List.sum_eq_foldl, ← List.sum_eq_foldl, hranges.sum_eq, hranges.length_eq,
    min?_perm hranges, max?_perm hranges]

theorem outputs_perm {rows' : List Row} (h : rows.Perm rows') : outputs rows = outputs rows' :=
  List.toFinset_eq_of_perm _ _ (h.map Row.power)

theorem launchEstimate_perm {rows' : List Row} (h : Accepted rows) (hperm : rows.Perm rows')
    (target : ℚ) : launchEstimate rows' target = launchEstimate rows target := by
  have h' : Accepted rows' := fun row hrow => h row (hperm.mem_iff.2 hrow)
  have hgroups : groupsOf rows' = groupsOf rows := by
    unfold groupsOf
    rw [outputs_perm hperm]
    exact List.map_congr_left fun power _ => (groupAt_perm hperm power).symm
  unfold launchEstimate
  rw [launchGroups_eq h, launchGroups_eq h', hgroups]

/-! ## The estimate -/

/-- There is an answer when the outputs are several, their means grow, and the target is more than
nothing and among the means; the answer is between two neighbouring outputs, the one place where
the curve takes the target, and further on for a further target. The order of the rows is nothing
to it. -/
theorem launchEstimate_curve (rows : List Row) (h : Accepted rows) :
    (∀ target, (∃ power low high groups message,
        launchEstimate rows target = .found power low high groups message)
          ↔ Answerable rows target) ∧
      (∀ target, ¬ Answerable rows target →
        ∃ message groups, launchEstimate rows target = .refused message groups) ∧
      (∀ target power low high groups message,
        launchEstimate rows target = .found power low high groups message →
          Answers rows target power low high ∧ ∀ x, Curve rows x target ↔ x = power) ∧
      (∀ target target' power power' low low' high high' groups groups' message message',
        launchEstimate rows target = .found power low high groups message →
        launchEstimate rows target' = .found power' low' high' groups' message' →
        target < target' → power < power') ∧
      ∀ rows' : List Row, rows.Perm rows' → ∀ target,
        launchEstimate rows' target = launchEstimate rows target := by
  have hiff (target : ℚ) : (∃ power low high groups message,
      launchEstimate rows target = .found power low high groups message)
        ↔ Answerable rows target := by
    constructor
    · rintro ⟨power, low, high, groups, message, hfound⟩
      by_contra hnot
      obtain ⟨message', hrefused⟩ := launchEstimate_refused h hnot
      rw [hrefused] at hfound
      cases hfound
    · intro hanswer
      obtain ⟨power, low, high, hfound, -⟩ := launchEstimate_found h hanswer
      exact ⟨power, low, high, _, _, hfound⟩
  have hanswers (target power : ℚ) (low high : Group) (groups : List Group) (message : String)
      (hfound : launchEstimate rows target = .found power low high groups message) :
      Answerable rows target ∧ Answers rows target power low high := by
    have hanswer := (hiff target).1 ⟨_, _, _, _, _, hfound⟩
    obtain ⟨power', low', high', hfound', hanswers⟩ := launchEstimate_found h hanswer
    obtain ⟨rfl, rfl, rfl, -, -⟩ := Estimate.found.inj (hfound.symm.trans hfound')
    exact ⟨hanswer, hanswers⟩
  refine ⟨hiff, fun target hnot => ?_, ?_, ?_,
    fun rows' hperm target => launchEstimate_perm h hperm target⟩
  · obtain ⟨message, hrefused⟩ := launchEstimate_refused h hnot
    exact ⟨message, _, hrefused⟩
  · intro target power low high groups message hfound
    obtain ⟨hanswer, hpower⟩ := hanswers _ _ _ _ _ _ hfound
    refine ⟨hpower, fun x => ⟨fun hx => ?_, fun hx => hx ▸ hpower.onCurve⟩⟩
    exact onCurve_unique hanswer.increasing hx hpower.onCurve
  · intro target target' power power' low low' high high' groups groups' message message'
      hfound hfound' hlt
    obtain ⟨hanswer, hpower⟩ := hanswers _ _ _ _ _ _ hfound
    obtain ⟨-, hpower'⟩ := hanswers _ _ _ _ _ _ hfound'
    exact onCurve_gt hanswer.increasing hpower.onCurve hpower'.onCurve hlt

theorem increasing_pair {f : ℚ → ℚ} {a b : ℚ} (hab : a < b) (hf : f a < f b) :
    StrictMonoOn f (({a, b} : Finset ℚ) : Set ℚ) := by
  intro p hp q hq hpq
  simp only [Finset.coe_insert, Finset.coe_singleton, Set.mem_insert_iff,
    Set.mem_singleton_iff] at hp hq
  rcases hp with rfl | rfl <;> rcases hq with rfl | rfl
  · exact absurd hpq (lt_irrefl _)
  · exact hf
  · exact absurd hpq hab.not_gt
  · exact absurd hpq (lt_irrefl _)

/-- Two outputs, and a target between their distances. -/
theorem launchEstimate_curve_two : ∃ power low high groups message,
    launchEstimate [⟨40, 1⟩, ⟨60, 2⟩] (3 / 2) = .found power low high groups message ∧
      ∀ x, Curve [⟨40, 1⟩, ⟨60, 2⟩] x (3 / 2) ↔ x = power := by
  have haccepted : Accepted [⟨40, 1⟩, ⟨60, 2⟩] := by
    unfold Accepted Row.refused MAX_POWER MAX_RANGE
    norm_num
  obtain ⟨hanswers, -, hcurve, -⟩ := launchEstimate_curve [⟨40, 1⟩, ⟨60, 2⟩] haccepted
  have hfirst : meanAt [⟨40, 1⟩, ⟨60, 2⟩] 40 = 1 := by norm_num [meanAt, rangesAt]
  have hsecond : meanAt [⟨40, 1⟩, ⟨60, 2⟩] 60 = 2 := by norm_num [meanAt, rangesAt]
  have houtputs : outputs [⟨40, 1⟩, ⟨60, 2⟩] = {40, 60} := by simp [outputs]
  obtain ⟨power, low, high, groups, message, hfound⟩ := (hanswers (3 / 2)).2
    { positive := by norm_num
      several := by rw [houtputs]; norm_num
      increasing := by
        rw [houtputs]
        exact increasing_pair (by norm_num) (by rw [hfirst, hsecond]; norm_num)
      above := ⟨40, by rw [houtputs]; simp, by rw [hfirst]; norm_num⟩
      below := ⟨60, by rw [houtputs]; simp, by rw [hsecond]; norm_num⟩ }
  exact ⟨power, low, high, groups, message, hfound, (hcurve _ _ _ _ _ _ hfound).2⟩

/-- A target of nothing is refused, also where a launch went nowhere. -/
theorem launchEstimate_zero : ¬ ∀ rows, Accepted rows → ∀ target,
    (∃ power low high groups message,
        launchEstimate rows target = .found power low high groups message)
      ↔ 2 ≤ (outputs rows).card ∧ StrictMonoOn (meanAt rows) (outputs rows : Set ℚ) ∧
        (∃ p ∈ outputs rows, meanAt rows p ≤ target) ∧
        ∃ p ∈ outputs rows, target ≤ meanAt rows p := by
  intro h
  have haccepted : Accepted [⟨5, 0⟩, ⟨60, 2⟩] := by
    unfold Accepted Row.refused MAX_POWER MAX_RANGE
    norm_num
  have hfirst : meanAt [⟨5, 0⟩, ⟨60, 2⟩] 5 = 0 := by norm_num [meanAt, rangesAt]
  have hsecond : meanAt [⟨5, 0⟩, ⟨60, 2⟩] 60 = 2 := by norm_num [meanAt, rangesAt]
  have houtputs : outputs [⟨5, 0⟩, ⟨60, 2⟩] = {5, 60} := by simp [outputs]
  have hmono : StrictMonoOn (meanAt [⟨5, 0⟩, ⟨60, 2⟩]) (outputs [⟨5, 0⟩, ⟨60, 2⟩] : Set ℚ) := by
    rw [houtputs]
    exact increasing_pair (by norm_num) (by rw [hfirst, hsecond]; norm_num)
  obtain ⟨power, low, high, groups, message, hfound⟩ := (h _ haccepted 0).2
    ⟨by rw [houtputs]; norm_num, hmono, ⟨5, by rw [houtputs]; simp, hfirst.le⟩,
      ⟨60, by rw [houtputs]; simp, by rw [hsecond]; norm_num⟩⟩
  have hnot : ¬ Answerable [⟨5, 0⟩, ⟨60, 2⟩] 0 := fun hanswer => lt_irrefl _ hanswer.positive
  obtain ⟨message', hrefused⟩ := launchEstimate_refused haccepted hnot
  rw [hrefused] at hfound
  cases hfound

end Questix.LabPage.Launch

/-
Questix.LabPage.RecordingTheorems — which recordings come back from their own
file as they were.

A text is trimmed and then cut, and a label made of the gains is not cut at
all; so a second cleaning may still find something. `cleanText_again` and
`cleanConditions_again` say when it does.
-/
import Questix.LabPage.RecordingCore

namespace Questix.LabPage.RecordingCore

open Questix.Lib

variable {host : Host}

/-! ## Texts -/

/-- A text that is cut, is not cut right behind a blank. -/
def CutsClean (value : Js) (max : Nat) : Prop :=
  match value with
  | .str s => max < (trim s).length → ∀ u ∈ (trim s)[max - 1]?, isBlank u = false
  | _ => True

theorem take_self_iff {t : Units} {max : Nat} : t.take max = t ↔ t.length ≤ max := by
  constructor
  · intro h
    rw [← h]
    exact List.length_take_le _ _
  · exact List.take_of_length_le

theorem cleanText_str (s : Units) (max : Nat) : cleanText (.str s) max = (trim s).take max := rfl

theorem trim_length_le (s : Units) : (trim s).length ≤ s.length :=
  (List.rdropWhile_prefix isBlank _).length_le.trans (List.length_dropWhile_le _ _)

theorem trimmed_take_iff {t : Units} {max : Nat} (ht : Trimmed t) (hmax : 0 < max) :
    Trimmed (t.take max) ↔ (max < t.length → ∀ u ∈ t[max - 1]?, isBlank u = false) := by
  have hhead : (t.take max).head? = t.head? := by
    rw [List.head?_take, if_neg (by omega)]
  by_cases hlong : max < t.length
  · have hlast : (t.take max).getLast? = t[max - 1]? := by
      have hsome : max - 1 < t.length := by omega
      rw [List.getLast?_take, if_neg (by omega), List.getElem?_eq_getElem hsome, Option.some_or]
    constructor
    · rintro ⟨-, h⟩ _
      rwa [hlast] at h
    · intro h
      refine ⟨?_, ?_⟩
      · rw [hhead]
        exact ht.1
      · rw [hlast]
        exact h hlong
  · rw [List.take_of_length_le (by omega)]
    exact ⟨fun _ hlt => absurd hlt hlong, fun _ => ht⟩

theorem cleanText_again (value : Js) {max : Nat} (hmax : 0 < max) :
    cleanText (.str (cleanText value max)) max = cleanText value max ↔ CutsClean value max := by
  cases value with
  | str s =>
    have hlen : (trim ((trim s).take max)).length ≤ max :=
      (trim_length_le _).trans (List.length_take_le _ _)
    change (trim ((trim s).take max)).take max = (trim s).take max ↔ _
    rw [List.take_of_length_le hlen, trim_eq_self_iff, trimmed_take_iff (trimmed_trim s) hmax]
    rfl
  | undefined | null | bool _ | num _ | arr _ | obj _ =>
    exact ⟨fun _ => trivial, fun _ => by simp [cleanText, trim]⟩

theorem cleanText_again_ne_nil {value : Js} {max : Nat} (hmax : 0 < max)
    (h : cleanText value max ≠ []) : cleanText (.str (cleanText value max)) max ≠ [] := by
  cases value with
  | str s =>
    have htrimmed := (trimmed_trim s).1
    cases ht : trim s with
    | nil => exact absurd (by simp [cleanText, ht]) h
    | cons u rest =>
      have hu : isBlank u = false := htrimmed u (by rw [ht]; rfl)
      obtain ⟨n, rfl⟩ : ∃ n, max = n + 1 := ⟨max - 1, by omega⟩
      change (trim ((trim s).take (n + 1))).take (n + 1) ≠ []
      rw [ht, List.take_succ_cons]
      intro hnil
      have hempty : trim (u :: rest.take n) = [] := by
        rcases List.take_eq_nil_iff.mp hnil with hzero | hnil
        · exact absurd hzero (by omega)
        · exact hnil
      unfold trim at hempty
      rw [List.dropWhile_cons_of_neg (by simp [hu]), List.rdropWhile_eq_nil_iff] at hempty
      exact absurd (hempty u List.mem_cons_self) (by simp [hu])
  | undefined | null | bool _ | num _ | arr _ | obj _ => exact absurd rfl h

/-! ## Labels made of numbers -/

/-- What is known of the spelling of numbers: a text without blanks. -/
def SpellsNumbers (host : Host) : Prop :=
  ∀ q, (host.toFixed2 q ≠ [] ∧ ∀ u ∈ host.toFixed2 q, isBlank u = false) ∧
    host.numberText q ≠ [] ∧ ∀ u ∈ host.numberText q, isBlank u = false

theorem Trimmed.append {s t : Units} (hs : s ≠ []) (ht : t ≠ [])
    (hhead : ∀ u ∈ s.head?, isBlank u = false) (hlast : ∀ u ∈ t.getLast?, isBlank u = false) :
    Trimmed (s ++ t) := by
  constructor
  · rw [List.head?_append_of_ne_nil _ hs]
    exact hhead
  · rw [List.getLast?_append_of_ne_nil _ ht]
    exact hlast

theorem trimmed_intersperse (sep : Units) (pieces : List Units)
    (h : ∀ piece ∈ pieces, piece ≠ [] ∧ Trimmed piece) :
    Trimmed (pieces.intersperse sep).flatten ∧
      (pieces ≠ [] → (pieces.intersperse sep).flatten ≠ []) := by
  induction pieces with
  | nil => exact ⟨⟨by simp, by simp⟩, fun hne => absurd rfl hne⟩
  | cons piece rest ih =>
    have hpiece := h piece List.mem_cons_self
    cases rest with
    | nil =>
      rw [List.intersperse_singleton, List.flatten_cons, List.flatten_nil, List.append_nil]
      exact ⟨hpiece.2, fun _ => hpiece.1⟩
    | cons next rest =>
      have htail := ih fun p hp => h p (List.mem_cons_of_mem _ hp)
      have hne := htail.2 (List.cons_ne_nil _ _)
      rw [List.intersperse_cons_cons, List.flatten_cons, List.flatten_cons]
      refine ⟨Trimmed.append hpiece.1 (by simp [hne]) hpiece.2.1 ?_, fun _ => by simp [hpiece.1]⟩
      rw [List.getLast?_append_of_ne_nil _ hne]
      exact htail.1.2

theorem head_not_blank {head : Option UInt16} (h : head.all (fun u => !isBlank u) = true) :
    ∀ u ∈ head, isBlank u = false := by
  intro u hu
  obtain rfl := Option.mem_def.mp hu
  simpa using h

theorem trimmed_conditionsText (hnumbers : SpellsNumbers host) (values : List (Units × Js)) :
    Trimmed (conditionsText host values) := by
  unfold conditionsText
  split
  next speed _ =>
    obtain ⟨⟨hne, hblank⟩, -⟩ := hnumbers speed
    refine Trimmed.append hne (by decide) ?_ (head_not_blank (by decide))
    exact fun u hu => hblank u (List.mem_of_mem_head? hu)
  next =>
    refine (trimmed_intersperse _ _ fun piece hpiece => ?_).1
    obtain ⟨⟨name, key⟩, hname, hmap⟩ := List.mem_filterMap.mp hpiece
    obtain ⟨value, -, rfl⟩ := Option.map_eq_some_iff.mp hmap
    obtain ⟨-, hne, hblank⟩ := hnumbers value
    have hletter : units name ≠ [] ∧ ∀ u ∈ (units name).head?, isBlank u = false := by
      simp only [List.mem_cons, Prod.mk.injEq, List.not_mem_nil, or_false] at hname
      obtain ⟨rfl, -⟩ | ⟨rfl, -⟩ | ⟨rfl, -⟩ := hname <;>
        exact ⟨by decide, head_not_blank (by decide)⟩
    rw [List.append_assoc]
    refine ⟨by simp [hletter.1], Trimmed.append hletter.1 (by simp [hne]) hletter.2 ?_⟩
    rw [List.getLast?_append_of_ne_nil _ hne]
    exact fun u hu => hblank u (List.mem_of_mem_getLast? hu)

/-! ## Conditions -/

/-- The conditions whose second cleaning finds nothing. -/
def ConditionsReopen (host : Host) (value : Js) : Prop :=
  match value with
  | .str s => CutsClean (.str s) MAX_TEXT
  | .obj members =>
    (∀ key s, (key, Js.str s) ∈ members → key ≠ units "label" → key ≠ units "__proto__" →
      CutsClean (.str s) MAX_TEXT) ∧
      CutsClean (Js.get members (units "label")) MAX_TEXT ∧
      (cleanText (Js.get members (units "label")) MAX_TEXT = [] →
        (conditionsText host (members.filterMap keptItem)).length ≤ MAX_TEXT)
  | _ => True

theorem key_of_keptItem {item kept : Units × Js} (h : keptItem item = some kept) :
    kept.1 = item.1 ∧ item.1 ≠ units "label" ∧ item.1 ≠ units "__proto__" := by
  unfold keptItem at h
  split_ifs at h with hkey
  obtain ⟨hlabel, hproto⟩ := not_or.mp hkey
  refine ⟨?_, hlabel, hproto⟩
  split at h
  all_goals first
    | exact (congrArg Prod.fst (Option.some.inj h)).symm
    | exact absurd h (by simp)

theorem keptItem_again {item kept : Units × Js} (h : keptItem item = some kept) :
    (keptItem kept = some kept ∨
      ∃ s, item.2 = .str s ∧ kept.2 = .str (cleanText (.str s) MAX_TEXT)) ∧
      (keptItem kept).isSome := by
  have hkey := key_of_keptItem h
  unfold keptItem at h
  rw [if_neg (not_or.mpr hkey.2)] at h
  split at h
  all_goals first
    | obtain rfl := Option.some.inj h
      unfold keptItem
      rw [if_neg (not_or.mpr hkey.2)]
      simp_all
    | exact absurd h (by simp)

theorem keptItem_again_iff {key : Units} {s : Units} (hlabel : key ≠ units "label")
    (hproto : key ≠ units "__proto__") :
    keptItem (key, .str (cleanText (.str s) MAX_TEXT))
        = some (key, .str (cleanText (.str s) MAX_TEXT)) ↔ CutsClean (.str s) MAX_TEXT := by
  unfold keptItem
  rw [if_neg (not_or.mpr ⟨hlabel, hproto⟩)]
  simp only [Option.some.injEq, Prod.mk.injEq, true_and, Js.str.injEq]
  exact cleanText_again (.str s) (by decide)

theorem filterMap_eq_self_iff {α : Type*} {f : α → Option α} {l : List α}
    (h : ∀ a ∈ l, (f a).isSome) : l.filterMap f = l ↔ ∀ a ∈ l, f a = some a := by
  induction l with
  | nil => simp
  | cons a l ih =>
    obtain ⟨b, hb⟩ := Option.isSome_iff_exists.mp (h a List.mem_cons_self)
    rw [List.filterMap_cons_some hb, List.cons.injEq, List.forall_mem_cons,
      ih fun a ha => h a (List.mem_cons_of_mem _ ha), hb, Option.some.injEq]

theorem keptItems_again (members : List (Units × Js)) :
    (members.filterMap keptItem).filterMap keptItem = members.filterMap keptItem ↔
      ∀ key s, (key, Js.str s) ∈ members → key ≠ units "label" → key ≠ units "__proto__" →
        CutsClean (.str s) MAX_TEXT := by
  rw [filterMap_eq_self_iff]
  · constructor
    · intro h key s hmem hlabel hproto
      have hkept : keptItem (key, .str s) = some (key, .str (cleanText (.str s) MAX_TEXT)) := by
        unfold keptItem
        rw [if_neg (not_or.mpr ⟨hlabel, hproto⟩)]
      exact (keptItem_again_iff hlabel hproto).mp
        (h _ (List.mem_filterMap.mpr ⟨_, hmem, hkept⟩))
    · intro h kept hkept
      obtain ⟨item, hmem, hitem⟩ := List.mem_filterMap.mp hkept
      obtain ⟨hkey, hlabel, hproto⟩ := key_of_keptItem hitem
      rcases (keptItem_again hitem).1 with hagain | ⟨s, hs, hclean⟩
      · exact hagain
      · obtain ⟨key, value⟩ := item
        obtain ⟨key', value'⟩ := kept
        dsimp only at hkey hs hclean hlabel hproto
        subst hkey hs hclean
        exact (keptItem_again_iff hlabel hproto).mpr (h key' s hmem hlabel hproto)
  · intro kept hkept
    obtain ⟨item, -, hitem⟩ := List.mem_filterMap.mp hkept
    exact (keptItem_again hitem).2

theorem keptItem_label (value : Js) : keptItem (units "label", value) = none := by
  unfold keptItem
  rw [if_pos (Or.inl rfl)]

theorem get_label {kept : List (Units × Js)} (h : ∀ item ∈ kept, item.1 ≠ units "label")
    (label : Units) :
    Js.get (kept ++ [(units "label", .str label)]) (units "label") = .str label := by
  have hnone : kept.lookup (units "label") = none := by
    refine List.lookup_eq_none_iff.mpr fun item hitem => ?_
    exact bne_iff_ne.mpr (Ne.symm (h item hitem))
  have hone : List.lookup (units "label") [(units "label", Js.str label)]
      = some (.str label) := by
    rw [List.lookup_cons_self]
  rw [Js.get_append, hnone, hone]
  rfl

theorem cleanConditions_toJs (conditions : Conditions)
    (hkeys : ∀ item ∈ conditions.kept, item.1 ≠ units "label") :
    cleanConditions host conditions.toJs =
      let kept := conditions.kept.filterMap keptItem
      let given := cleanText (.str conditions.label) MAX_TEXT
      let label := if given = [] then conditionsText host kept else given
      if label = [] ∧ kept.isEmpty then none else some ⟨kept, label⟩ := by
  have hget := get_label hkeys conditions.label
  have hkept : (conditions.kept ++ [(units "label", Js.str conditions.label)]).filterMap keptItem
      = conditions.kept.filterMap keptItem := by
    rw [List.filterMap_append, List.filterMap_cons_none (keptItem_label _), List.filterMap_nil,
      List.append_nil]
  unfold Conditions.toJs cleanConditions
  dsimp only
  rw [hget, hkept]

theorem cutsClean_of_nil {value : Js} {max : Nat} (hmax : 0 < max) (h : cleanText value max = []) :
    CutsClean value max :=
  (cleanText_again value hmax).mp (by rw [h]; simp [cleanText, trim])

/-- Conditions come back as they were. -/
theorem cleanConditions_again (hnumbers : SpellsNumbers host) (value : Js)
    {conditions : Conditions} (h : cleanConditions host value = some conditions) :
    cleanConditions host conditions.toJs = some conditions ↔ ConditionsReopen host value := by
  have hpos : 0 < MAX_TEXT := by decide
  cases value with
  | str s =>
    change (if cleanText (.str s) MAX_TEXT = [] then none
      else some ⟨[], cleanText (.str s) MAX_TEXT⟩) = some conditions at h
    split_ifs at h with hempty
    obtain rfl := Option.some.inj h
    have hagain := cleanText_again_ne_nil hpos hempty
    rw [cleanConditions_toJs _ (by simp)]
    dsimp only
    rw [if_neg hagain, if_neg (fun hnone => hagain hnone.1), Option.some.injEq,
      Conditions.mk.injEq]
    simp only [List.filterMap_nil, true_and]
    exact cleanText_again (.str s) hpos
  | obj members =>
    have hkeys : ∀ item ∈ members.filterMap keptItem, item.1 ≠ units "label" := by
      intro item hitem
      obtain ⟨given, -, hgiven⟩ := List.mem_filterMap.mp hitem
      obtain ⟨hkey, hlabel, -⟩ := key_of_keptItem hgiven
      rwa [hkey]
    have hitems := keptItems_again members
    unfold cleanConditions at h
    dsimp only at h
    unfold ConditionsReopen
    dsimp only
    rw [← hitems]
    by_cases hmade : cleanText (Js.get members (units "label")) MAX_TEXT = []
    · -- the label was made of what was kept
      rw [if_pos hmade] at h
      have hcut := cutsClean_of_nil hpos hmade
      have htrimmed := trimmed_conditionsText hnumbers (members.filterMap keptItem)
      have hagain : cleanText (.str (conditionsText host (members.filterMap keptItem))) MAX_TEXT
          = (conditionsText host (members.filterMap keptItem)).take MAX_TEXT := by
        rw [cleanText_str, (trim_eq_self_iff _).mpr htrimmed]
      by_cases hnone : conditionsText host (members.filterMap keptItem) = [] ∧
          (members.filterMap keptItem).isEmpty
      · rw [if_pos hnone] at h
        exact absurd h (by simp)
      rw [if_neg hnone] at h
      obtain rfl := Option.some.inj h
      rw [cleanConditions_toJs _ hkeys]
      dsimp only
      rw [hagain]
      by_cases hempty : conditionsText host (members.filterMap keptItem) = []
      · constructor
        · intro heq
          split_ifs at heq
          all_goals
            have hkept := (Conditions.mk.inj (Option.some.inj heq)).1
            exact ⟨hkept, hcut, fun _ => by rw [hempty]; exact Nat.zero_le _⟩
        · rintro ⟨hkept, -, -⟩
          rw [hempty] at hnone
          rw [hkept, hempty, List.take_nil, if_pos rfl, if_neg hnone]
      · have htake : (conditionsText host (members.filterMap keptItem)).take MAX_TEXT ≠ [] := by
          intro hnil
          rcases List.take_eq_nil_iff.mp hnil with hzero | hnil
          · exact absurd hzero (by decide)
          · exact hempty hnil
        rw [if_neg htake, if_neg (fun hboth => htake hboth.1), Option.some.injEq,
          Conditions.mk.injEq, take_self_iff]
        exact ⟨fun hboth => ⟨hboth.1, hcut, fun _ => hboth.2⟩,
          fun hall => ⟨hall.1, hall.2.2 hmade⟩⟩
    · -- the label was given
      rw [if_neg hmade, if_neg (fun hboth => hmade hboth.1)] at h
      obtain rfl := Option.some.inj h
      have hagain := cleanText_again_ne_nil hpos hmade
      rw [cleanConditions_toJs _ hkeys]
      dsimp only
      rw [if_neg hagain, if_neg (fun hboth => hagain hboth.1), Option.some.injEq,
        Conditions.mk.injEq, cleanText_again _ hpos]
      exact ⟨fun hboth => ⟨hboth.1, hboth.2, fun hnil => absurd hnil hmade⟩,
        fun hall => ⟨hall.1, hall.2.1⟩⟩
  | undefined | null | bool _ | num _ | arr _ => exact absurd h (by simp [cleanConditions])

/-! ## The other run fields -/

theorem nonEmpty_eq_some {s t : Units} : nonEmpty s = some t ↔ s = t ∧ s ≠ [] := by
  unfold nonEmpty
  split_ifs with h
  · simp [h]
  · simp [h]

def textJs (text : Option Units) : Js := (text.map Js.str).getD .undefined

theorem text_again (value : Js) {max : Nat} (hmax : 0 < max) :
    nonEmpty (cleanText (textJs (nonEmpty (cleanText value max))) max)
        = nonEmpty (cleanText value max) ↔ CutsClean value max := by
  by_cases h : cleanText value max = []
  · have hnone : nonEmpty (cleanText value max) = none := by simp [nonEmpty, h]
    rw [hnone]
    exact ⟨fun _ => cutsClean_of_nil hmax h, fun _ => rfl⟩
  · have hsome : nonEmpty (cleanText value max) = some (cleanText value max) := by
      simp [nonEmpty, h]
    rw [hsome]
    change nonEmpty (cleanText (.str (cleanText value max)) max) = some (cleanText value max) ↔ _
    rw [nonEmpty_eq_some, ← cleanText_again value hmax]
    exact ⟨fun hboth => hboth.1, fun heq => ⟨heq, by rw [heq]; exact h⟩⟩

theorem integer_toJs (domain : Option ℤ) :
    integer (match domain with
      | some domain => .num (.fin domain)
      | none => .null) = domain := by
  cases domain with
  | none => rfl
  | some domain => simp [integer, Js.finite]

theorem cleanRobot_again (value : Js) {robot : Robot} (h : cleanRobot value = some robot) :
    cleanRobot robot.toJs = some robot ↔ CutsClean (value.prop (units "name")) MAX_TEXT := by
  have hpos : 0 < MAX_TEXT := by decide
  unfold cleanRobot at h
  dsimp only at h
  split_ifs at h with hkept
  obtain rfl := Option.some.inj h
  have hname : Js.prop (Robot.toJs ⟨cleanText (value.prop (units "name")) MAX_TEXT,
      integer (value.prop (units "domain"))⟩) (units "name")
      = .str (cleanText (value.prop (units "name")) MAX_TEXT) := rfl
  have hdomain : integer (Js.prop (Robot.toJs ⟨cleanText (value.prop (units "name")) MAX_TEXT,
      integer (value.prop (units "domain"))⟩) (units "domain"))
      = integer (value.prop (units "domain")) := integer_toJs _
  unfold cleanRobot
  dsimp only
  rw [hname, hdomain]
  have hagain : cleanText (.str (cleanText (value.prop (units "name")) MAX_TEXT)) MAX_TEXT ≠ [] ∨
      integer (value.prop (units "domain")) ≠ none :=
    hkept.imp_left (cleanText_again_ne_nil hpos)
  rw [if_pos hagain, Option.some.injEq, Robot.mk.injEq, cleanText_again _ hpos]
  exact and_iff_left rfl

theorem cleanOutcome_again (value : Js) {outcome : Outcome}
    (h : cleanOutcome value = some outcome) :
    cleanOutcome outcome.toJs = some outcome ↔
      CutsClean (value.prop (units "reason")) MAX_REASON ∧
        CutsClean (value.prop (units "label")) MAX_TEXT := by
  have hreason : 0 < MAX_REASON := by decide
  have hlabel : 0 < MAX_TEXT := by decide
  unfold cleanOutcome at h
  dsimp only at h
  split_ifs at h with hempty
  obtain rfl := Option.some.inj h
  have hagain := cleanText_again_ne_nil hreason hempty
  change (if cleanText (.str (cleanText (value.prop (units "reason")) MAX_REASON)) MAX_REASON = []
    then none else some _) = _ ↔ _
  rw [if_neg hagain, Option.some.injEq, Outcome.mk.injEq]
  exact and_congr (cleanText_again _ hreason) (cleanText_again _ hlabel)

/-! ## Streams -/

theorem mem_sortedByStamp {list : List Js} {message : Js} (h : message ∈ sortedByStamp list) :
    (stamp message).isSome := by
  unfold sortedByStamp at h
  rw [List.mem_mergeSort] at h
  exact (List.mem_filter.mp h).2

theorem sortedByStamp_again (list : List Js) :
    sortedByStamp (sortedByStamp list) = sortedByStamp list := by
  have hfilter : (sortedByStamp list).filter (fun message => (stamp message).isSome)
      = sortedByStamp list := List.filter_eq_self.mpr fun message h => mem_sortedByStamp h
  have hsorted : (sortedByStamp list).Pairwise fun a b => stampLe a b = true := by
    refine List.pairwise_mergeSort ?_ ?_ _
    · intro a b c hab hbc
      unfold stampLe at *
      exact decide_eq_true ((of_decide_eq_true hab).trans (of_decide_eq_true hbc))
    · intro a b
      unfold stampLe
      rcases le_total ((stamp a).getD 0) ((stamp b).getD 0) with h | h <;> simp [h]
  calc sortedByStamp (sortedByStamp list)
      = ((sortedByStamp list).filter fun message => (stamp message).isSome).mergeSort stampLe := rfl
    _ = (sortedByStamp list).mergeSort stampLe := by rw [hfilter]
    _ = sortedByStamp list := List.mergeSort_of_pairwise hsorted

/-- The streams of a recording as an object. -/
def streamsJs (streams : List (Stream × List Js)) : Js :=
  .obj (streams.map fun (stream, items) => (stream.key, .arr items))

theorem Stream.key_injective {a b : Stream} (h : a.key = b.key) : a = b := by
  revert h
  cases a <;> cases b <;> first | exact fun _ => rfl | exact fun h => absurd h (by decide)

/-- A stream is found among those that were kept. -/
theorem prop_streamsJs (streams : Js) (order : List Stream) (horder : order.Nodup)
    (stream : Stream) :
    (streamsJs (order.filterMap (keptStream streams))).prop stream.key =
      if stream ∈ order then
        match keptStream streams stream with
        | some (_, items) => .arr items
        | none => .undefined
      else .undefined := by
  induction order with
  | nil => rfl
  | cons head rest ih =>
    have hrest := ih horder.of_cons
    have hhead : head ∉ rest := (List.nodup_cons.mp horder).1
    cases hkept : keptStream streams head with
    | none =>
      rw [List.filterMap_cons_none hkept, hrest]
      by_cases hsame : stream = head
      · subst hsame
        rw [if_neg hhead, if_pos List.mem_cons_self, hkept]
      · simp [hsame]
    | some kept =>
      have hname : kept.1 = head := by
        unfold keptStream at hkept
        split at hkept
        · exact (congrArg Prod.fst (Option.some.inj hkept)).symm
        · exact absurd hkept (by simp)
      obtain ⟨name, items⟩ := kept
      obtain rfl : name = head := hname
      rw [List.filterMap_cons_some hkept]
      change Js.get ((name.key, .arr items) :: _) stream.key = _
      unfold Js.get
      by_cases hsame : stream = name
      · subst hsame
        rw [List.lookup_cons_self, if_pos List.mem_cons_self, hkept]
        rfl
      · have hne : (stream.key == name.key) = false :=
          beq_eq_false_iff_ne.mpr fun h => hsame (Stream.key_injective h)
        rw [List.lookup_cons, hne]
        change (streamsJs (rest.filterMap (keptStream streams))).prop stream.key = _
        rw [hrest]
        simp [hsame]

theorem nodup_streams : RECORDING_STREAMS.Nodup := by decide

theorem mem_streams (stream : Stream) : stream ∈ RECORDING_STREAMS := by
  cases stream <;> decide

theorem prop_kept (streams : Js) (stream : Stream) :
    (streamsJs (RECORDING_STREAMS.filterMap (keptStream streams))).prop stream.key =
      match keptStream streams stream with
      | some (_, items) => .arr items
      | none => .undefined := by
  rw [prop_streamsJs streams _ nodup_streams, if_pos (mem_streams stream)]

theorem keptStream_again (streams : Js) (stream : Stream) :
    keptStream (streamsJs (RECORDING_STREAMS.filterMap (keptStream streams))) stream
      = keptStream streams stream := by
  have hprop := prop_kept streams stream
  cases hkept : keptStream streams stream with
  | none =>
    rw [hkept] at hprop
    unfold keptStream at hprop ⊢
    rw [hprop]
  | some kept =>
    have hkeeps : ∃ items, kept = (stream, sortedByStamp items) := by
      unfold keptStream at hkept
      split at hkept
      next items _ => exact ⟨items, (Option.some.inj hkept).symm⟩
      next => exact absurd hkept (by simp)
    obtain ⟨items, rfl⟩ := hkeeps
    rw [hkept] at hprop
    unfold keptStream at hprop ⊢
    rw [hprop]
    dsimp only
    rw [sortedByStamp_again]

/-- How many messages are kept of one stream. -/
def keptCount (streams : Js) (stream : Stream) : Nat :=
  match keptStream streams stream with
  | some (_, items) => items.length
  | none => 0

theorem countMessages_kept (streams : Js) (order : List Stream) :
    countMessages (streamsJs (RECORDING_STREAMS.filterMap (keptStream streams))) order
      = .ok (order.map (keptCount streams)).sum := by
  induction order with
  | nil => rfl
  | cons stream rest ih =>
    have hprop := prop_kept streams stream
    unfold countMessages
    rw [hprop]
    cases hkept : keptStream streams stream with
    | none =>
      have hzero : keptCount streams stream = 0 := by
        unfold keptCount
        rw [hkept]
      dsimp only
      rw [ih, List.map_cons, List.sum_cons, hzero, Nat.zero_add]
    | some kept =>
      have hlength : keptCount streams stream = kept.2.length := by
        unfold keptCount
        rw [hkept]
      dsimp only
      rw [ih, List.map_cons, List.sum_cons, hlength]
      rfl

/-! ## A recording and its file -/

theorem lookup_member (key key' : String) (value : Option Js) :
    (member key value).lookup (units key') = if units key' = units key then value else none := by
  unfold member
  cases value with
  | none => simp
  | some value =>
    by_cases h : units key' = units key
    · rw [if_pos h, h]
      exact List.lookup_cons_self
    · have hne : (units key' == units key) = false := beq_eq_false_iff_ne.mpr h
      rw [if_neg h]
      change List.lookup _ [(units key, value)] = none
      rw [List.lookup_cons, hne]
      rfl

section toJs

variable (recording : Recording)

theorem prop_toJs_info {key : String}
    (h : key = "lesson" ∨ key = "conditions" ∨ key = "robot" ∨ key = "group" ∨ key = "outcome") :
    recording.toJs.prop (units key)
      = (recording.info.members.lookup (units key)).getD .undefined := by
  unfold Recording.toJs
  change Js.get (_ ++ _) _ = _
  rw [Js.get_append]
  obtain rfl | rfl | rfl | rfl | rfl := h <;> rfl

theorem prop_toJs_lesson :
    recording.toJs.prop (units "lesson") = textJs recording.info.lesson := by
  rw [prop_toJs_info _ (by simp)]
  simp +decide only [RunInfo.members, List.lookup_append, lookup_member, if_false, if_true,
    Option.or_none]
  rfl

theorem prop_toJs_conditions :
    recording.toJs.prop (units "conditions")
      = (recording.info.conditions.map Conditions.toJs).getD .undefined := by
  rw [prop_toJs_info _ (by simp)]
  simp +decide only [RunInfo.members, List.lookup_append, lookup_member, if_false, if_true,
    Option.or_none, Option.none_or]

theorem prop_toJs_robot :
    recording.toJs.prop (units "robot")
      = (recording.info.robot.map Robot.toJs).getD .undefined := by
  rw [prop_toJs_info _ (by simp)]
  simp +decide only [RunInfo.members, List.lookup_append, lookup_member, if_false, if_true,
    Option.or_none, Option.none_or]

theorem prop_toJs_group :
    recording.toJs.prop (units "group") = textJs recording.info.group := by
  rw [prop_toJs_info _ (by simp)]
  simp +decide only [RunInfo.members, List.lookup_append, lookup_member, if_false, if_true,
    Option.or_none, Option.none_or]
  rfl

theorem prop_toJs_outcome :
    recording.toJs.prop (units "outcome")
      = (recording.info.outcome.map Outcome.toJs).getD .undefined := by
  rw [prop_toJs_info _ (by simp)]
  simp +decide only [RunInfo.members, List.lookup_append, lookup_member, if_false, if_true,
    Option.none_or]

/-- The run fields as the file gives them. -/
def fieldsOf (info : RunInfo) : RunFields where
  lesson := textJs info.lesson
  conditions := (info.conditions.map Conditions.toJs).getD .undefined
  robot := (info.robot.map Robot.toJs).getD .undefined
  group := textJs info.group
  outcome := (info.outcome.map Outcome.toJs).getD .undefined

/-- The parts that a file gives back. -/
def partsOf : Parts where
  source := recording.source
  name := recording.name
  recordedAt := recording.recordedAt
  config := .obj [(units "wheel_radius", recording.wheelRadius),
    (units "wheel_separation", recording.wheelSeparation)]
  topics := recording.topics
  streams := streamsJs recording.streams
  info := fieldsOf recording.info

theorem parseData_toJs :
    parseData host recording.toJs =
      if positive host recording.wheelRadius ∧ positive host recording.wheelSeparation then
        match countMessages (streamsJs recording.streams) RECORDING_STREAMS with
        | .ok count =>
          if count > MAX_RECORDING_MESSAGES then .error .tooLong
          else .ok (makeRecording host (partsOf recording))
        | .error refusal => .error refusal
      else .error .noWheels := by
  have hformat : recording.toJs.prop (units "format") = .str RECORDING_FORMAT := rfl
  have hversion : recording.toJs.prop (units "version") = .num (.fin RECORDING_VERSION) := rfl
  have hconfig : recording.toJs.prop (units "config") = (partsOf recording).config := rfl
  have hsource : recording.toJs.prop (units "source") = recording.source := rfl
  have hname : recording.toJs.prop (units "name") = recording.name := rfl
  have hat : recording.toJs.prop (units "recordedAt") = recording.recordedAt := rfl
  have htopics : recording.toJs.prop (units "topics") = recording.topics := rfl
  have hstreams : recording.toJs.prop (units "streams") = streamsJs recording.streams := rfl
  unfold parseData
  rw [hformat, hversion, hconfig, hsource, hname, hat, htopics, hstreams, prop_toJs_lesson,
    prop_toJs_conditions, prop_toJs_robot, prop_toJs_group, prop_toJs_outcome]
  have hcheck : checkConfig host (partsOf recording).config =
      if positive host recording.wheelRadius ∧ positive host recording.wheelSeparation then .ok ()
      else .error .noWheels := rfl
  rw [hcheck]
  by_cases hwheels : positive host recording.wheelRadius ∧ positive host recording.wheelSeparation
  · rw [if_pos hwheels, if_pos hwheels]
    cases hcount : countMessages (streamsJs recording.streams) RECORDING_STREAMS with
    | ok count =>
      change (do
        let count ← countMessages (streamsJs recording.streams) RECORDING_STREAMS
        if count > MAX_RECORDING_MESSAGES then Except.error .tooLong
        else return makeRecording host (partsOf recording)) = _
      rw [hcount]
      rfl
    | error refusal =>
      change (do
        let count ← countMessages (streamsJs recording.streams) RECORDING_STREAMS
        if count > MAX_RECORDING_MESSAGES then Except.error .tooLong
        else return makeRecording host (partsOf recording)) = _
      rw [hcount]
      rfl
  · rw [if_neg hwheels, if_neg hwheels]
    rfl

end toJs

/-! ## The whole recording -/

/-- The parts of a recording that its file gives back as they were. -/
def Reopens (host : Host) (parts : Parts) : Prop :=
  (positive host (parts.config.prop (units "wheel_radius")) ∧
    positive host (parts.config.prop (units "wheel_separation"))) ∧
    (RECORDING_STREAMS.map (keptCount parts.streams)).sum ≤ MAX_RECORDING_MESSAGES ∧
    CutsClean parts.info.lesson MAX_TEXT ∧
    ConditionsReopen host parts.info.conditions ∧
    CutsClean (parts.info.robot.prop (units "name")) MAX_TEXT ∧
    CutsClean parts.info.group MAX_GROUP ∧
    CutsClean (parts.info.outcome.prop (units "reason")) MAX_REASON ∧
    (cleanText (parts.info.outcome.prop (units "reason")) MAX_REASON ≠ [] →
      CutsClean (parts.info.outcome.prop (units "label")) MAX_TEXT)

theorem optional_again {α : Type*} {toJs : α → Js} {clean : Js → Option α} {value : Option α}
    {P : Prop} (hundefined : clean .undefined = none) (hnone : value = none → P)
    (hsome : ∀ a, value = some a → (clean (toJs a) = some a ↔ P)) :
    clean ((value.map toJs).getD .undefined) = value ↔ P := by
  cases value with
  | none => exact ⟨fun _ => hnone rfl, fun _ => hundefined⟩
  | some a => exact hsome a rfl

theorem conditionsReopen_of_none {value : Js} (h : cleanConditions host value = none) :
    ConditionsReopen host value := by
  have hpos : 0 < MAX_TEXT := by decide
  cases value with
  | str s =>
    change (if cleanText (.str s) MAX_TEXT = [] then none
      else some (Conditions.mk [] (cleanText (.str s) MAX_TEXT))) = none at h
    split_ifs at h with hempty
    exact cutsClean_of_nil hpos hempty
  | obj members =>
    unfold cleanConditions at h
    dsimp only at h
    by_cases hmade : cleanText (Js.get members (units "label")) MAX_TEXT = []
    · rw [if_pos hmade] at h
      split_ifs at h with hboth
      obtain ⟨hempty, hkept⟩ := hboth
      have hnil : members.filterMap keptItem = [] := List.isEmpty_iff.mp hkept
      refine ⟨(keptItems_again members).mp (by rw [hnil]; rfl), cutsClean_of_nil hpos hmade,
        fun _ => ?_⟩
      rw [hempty]
      exact Nat.zero_le _
    · rw [if_neg hmade, if_neg fun hboth => hmade hboth.1] at h
      exact absurd h (by simp)
  | undefined | null | bool _ | num _ | arr _ => trivial

theorem runInfo_again (hnumbers : SpellsNumbers host) (fields : RunFields) :
    runInfo host (fieldsOf (runInfo host fields)) = runInfo host fields ↔
      CutsClean fields.lesson MAX_TEXT ∧ ConditionsReopen host fields.conditions ∧
        CutsClean (fields.robot.prop (units "name")) MAX_TEXT ∧
        CutsClean fields.group MAX_GROUP ∧
        CutsClean (fields.outcome.prop (units "reason")) MAX_REASON ∧
        (cleanText (fields.outcome.prop (units "reason")) MAX_REASON ≠ [] →
          CutsClean (fields.outcome.prop (units "label")) MAX_TEXT) := by
  have hlesson := @text_again fields.lesson MAX_TEXT (by decide)
  have hgroup := @text_again fields.group MAX_GROUP (by decide)
  have hconditions := @optional_again _ Conditions.toJs (cleanConditions host)
    (cleanConditions host fields.conditions) _ rfl conditionsReopen_of_none
    fun _ h => cleanConditions_again hnumbers _ h
  have hrobot := @optional_again _ Robot.toJs cleanRobot
    (cleanRobot fields.robot) (CutsClean (fields.robot.prop (units "name")) MAX_TEXT)
    rfl (fun hnone => by
      unfold cleanRobot at hnone
      dsimp only at hnone
      split_ifs at hnone with hkept
      exact cutsClean_of_nil (by decide) (not_not.mp (not_or.mp hkept).1))
    fun _ h => cleanRobot_again _ h
  have houtcome := @optional_again _ Outcome.toJs cleanOutcome
    (cleanOutcome fields.outcome)
    (CutsClean (fields.outcome.prop (units "reason")) MAX_REASON ∧
      (cleanText (fields.outcome.prop (units "reason")) MAX_REASON ≠ [] →
        CutsClean (fields.outcome.prop (units "label")) MAX_TEXT))
    rfl (fun hnone => by
      unfold cleanOutcome at hnone
      dsimp only at hnone
      split_ifs at hnone with hempty
      exact ⟨cutsClean_of_nil (by decide) hempty, fun hne => absurd hempty hne⟩)
    fun outcome h => by
      have hne : cleanText (fields.outcome.prop (units "reason")) MAX_REASON ≠ [] := by
        intro hempty
        unfold cleanOutcome at h
        dsimp only at h
        rw [if_pos hempty] at h
        exact absurd h (by simp)
      rw [cleanOutcome_again _ h]
      exact and_congr_right fun _ => ⟨fun hlabel _ => hlabel, fun hlabel => hlabel hne⟩
  unfold runInfo fieldsOf
  simp only [RunInfo.mk.injEq]
  rw [hlesson, hgroup, hconditions, hrobot, houtcome]

theorem withoutMark_of_brace {text : Units} (h : text.head? = some 123) :
    withoutMark text = text := by
  cases text with
  | nil => rfl
  | cons u rest =>
    obtain rfl := Option.some.inj h
    rfl

theorem topics_again (parts : Parts) :
    (makeRecording host (partsOf (makeRecording host parts))).topics
      = (makeRecording host parts).topics := by
  obtain ⟨source, name, recordedAt, config, topics, streams, info⟩ := parts
  cases topics <;> rfl

/-- A recording comes back from its file as it was exactly where its wheels and
its length are ones that are opened, no text of the run was cut behind a blank,
and a label made of the gains is no longer than a label may be. -/
theorem reopens_iff (parts : Parts) (hnumbers : SpellsNumbers host)
    (hjson : host.parse (host.stringify (makeRecording host parts).toJs)
      = some (makeRecording host parts).toJs)
    (hbrace : (host.stringify (makeRecording host parts).toJs).head? = some 123) :
    parseRecording host (serializeRecording host (makeRecording host parts))
        = .ok (makeRecording host parts) ↔ Reopens host parts := by
  have hmark : withoutMark (host.stringify (makeRecording host parts).toJs)
      = host.stringify (makeRecording host parts).toJs := withoutMark_of_brace hbrace
  have hcount : countMessages (streamsJs (makeRecording host parts).streams) RECORDING_STREAMS
      = .ok (RECORDING_STREAMS.map (keptCount parts.streams)).sum := countMessages_kept _ _
  have hstreams : (RECORDING_STREAMS.filterMap
      (keptStream (streamsJs (makeRecording host parts).streams)))
      = (makeRecording host parts).streams :=
    List.filterMap_congr fun stream _ => keptStream_again parts.streams stream
  have hagain : makeRecording host (partsOf (makeRecording host parts)) = makeRecording host parts
      ↔ runInfo host (fieldsOf (runInfo host parts.info)) = runInfo host parts.info := by
    constructor
    · exact fun h => congrArg Recording.info h
    · intro h
      have hfields : makeRecording host (partsOf (makeRecording host parts))
          = { makeRecording host parts with
              topics := (makeRecording host (partsOf (makeRecording host parts))).topics
              streams := RECORDING_STREAMS.filterMap
                (keptStream (streamsJs (makeRecording host parts).streams))
              info := runInfo host (fieldsOf (runInfo host parts.info)) } := rfl
      rw [hfields, topics_again, hstreams, h]
      rfl
  unfold parseRecording serializeRecording Reopens
  rw [hmark, hjson]
  dsimp only
  rw [parseData_toJs, hcount, ← runInfo_again hnumbers]
  change (if positive host (parts.config.prop (units "wheel_radius")) ∧
    positive host (parts.config.prop (units "wheel_separation")) then _ else _) = _ ↔ _
  by_cases hwheels : positive host (parts.config.prop (units "wheel_radius")) ∧
      positive host (parts.config.prop (units "wheel_separation"))
  · rw [if_pos hwheels]
    dsimp only
    by_cases hlong : (RECORDING_STREAMS.map (keptCount parts.streams)).sum > MAX_RECORDING_MESSAGES
    · rw [if_pos hlong]
      exact ⟨(fun h => by cases h), fun h => absurd h.2.1 (by omega)⟩
    · rw [if_neg hlong, Except.ok.injEq, hagain]
      exact ⟨fun h => ⟨hwheels, by omega, h⟩, fun h => h.2.2⟩
  · rw [if_neg hwheels]
    exact ⟨(fun h => by cases h), fun h => absurd h.1 hwheels⟩

/-- A run without messages, made for a lesson. -/
def shortRun (lesson : Units) : Parts where
  source := .str (units "live")
  name := .str (units "run")
  recordedAt := .str (units "2026-11-19T20:00:00.000Z")
  config := .obj [(units "wheel_radius", .num (.fin (1 / 20))),
    (units "wheel_separation", .num (.fin (1 / 2)))]
  topics := .undefined
  streams := .obj []
  info := ⟨.str lesson, .undefined, .undefined, .undefined, .undefined⟩

theorem shortRun_wheels (host : Host) (lesson : Units) :
    positive host ((shortRun lesson).config.prop (units "wheel_radius")) ∧
      positive host ((shortRun lesson).config.prop (units "wheel_separation")) := by
  have hkeys : (units "wheel_separation" == units "wheel_radius") = false := by decide
  simp only [shortRun, Js.prop, Js.get, List.lookup_cons, beq_self_eq_true, hkeys,
    Option.getD_some, positive, decide_eq_true_eq]
  exact ⟨by decide +kernel, by decide +kernel⟩

/-- What is written of a run without messages. -/
@[irreducible] def shortText (lesson : String) : Units :=
  units ("\x7b\"format\":\"questix-lab-recording\",\"version\":1,\"source\":\"live\",\"name\":\"run\","
    ++ "\"recordedAt\":\"2026-11-19T20:00:00.000Z\","
    ++ "\"config\":\x7b\"wheel_radius\":0.05,\"wheel_separation\":0.5\x7d,"
    ++ "\"topics\":\x7b\x7d,\"streams\":\x7b\x7d,\"lesson\":\"" ++ lesson ++ "\"\x7d")

/-- A page that has one run to write and to read. -/
def oneRun (lesson : String) (value : Js) : Host where
  toFixed2 _ := units "0.20"
  numberText _ := units "1"
  positive _ := false
  stringify _ := shortText lesson
  parse text := if text = shortText lesson then some value else none

/-- The host matters only to labels made of numbers. -/
def shortRecording (lesson : String) : Recording :=
  makeRecording (oneRun "" .null) (shortRun (units lesson))

theorem makeRecording_shortRun (host : Host) (lesson : String) :
    makeRecording host (shortRun (units lesson)) = shortRecording lesson := rfl

theorem oneRun_parse (lesson : String) (value written : Js) :
    (oneRun lesson value).parse ((oneRun lesson value).stringify written) = some value := by
  change (if shortText lesson = shortText lesson then some value else none) = some value
  rw [if_pos rfl]

theorem oneRun_stringify (lesson : String) (value written : Js) :
    (oneRun lesson value).stringify written = shortText lesson := rfl

theorem shortText_head (lesson : String) : (shortText lesson).head? = some 123 := by
  unfold shortText
  simp only [units, String.toList_append, utf16_append, List.append_assoc]
  rfl

theorem oneRun_spells (lesson : String) (value : Js) : SpellsNumbers (oneRun lesson value) := by
  intro q
  have hnot {s : Units} (h : s.all (fun u => !isBlank u) = true) : ∀ u ∈ s, isBlank u = false :=
    fun u hu => by simpa using List.all_eq_true.mp h u hu
  change (units "0.20" ≠ [] ∧ ∀ u ∈ units "0.20", isBlank u = false) ∧
    units "1" ≠ [] ∧ ∀ u ∈ units "1", isBlank u = false
  exact ⟨⟨by decide, hnot (by decide)⟩, by decide, hnot (by decide)⟩

def speedRun : Parts := shortRun (units "control-speed")
def speedHost : Host := oneRun "control-speed" (shortRecording "control-speed").toJs

theorem reopens_iff_speed :
    parseRecording speedHost (serializeRecording speedHost (makeRecording speedHost speedRun))
      = .ok (makeRecording speedHost speedRun) := by
  have hreopens : Reopens speedHost speedRun := by
    refine ⟨shortRun_wheels _ _, by decide, ?_, trivial, trivial, trivial, trivial,
      fun _ => trivial⟩
    exact fun hlong => absurd hlong (by decide)
  have hsame : makeRecording speedHost speedRun = shortRecording "control-speed" :=
    makeRecording_shortRun speedHost "control-speed"
  have hspells : SpellsNumbers speedHost := oneRun_spells _ _
  refine (reopens_iff speedRun hspells ?_ ?_).mpr hreopens
  · rw [hsame]
    exact oneRun_parse _ _ _
  · rw [speedHost, oneRun_stringify, shortText_head]

/-- A lesson name that is cut behind a blank, and what is kept of it. -/
def longLesson : String := "aaaaaaaaaaaaaaaaaaaaaaaaaaaaaaaaaaaaaaaaaaaaaaaaaaaaaaaaaaa b"
def cutLesson : String := "aaaaaaaaaaaaaaaaaaaaaaaaaaaaaaaaaaaaaaaaaaaaaaaaaaaaaaaaaaa "

theorem parseRecording_of_parse {host : Host} {text : Units} {data : Js}
    (h : host.parse (withoutMark text) = some data) :
    parseRecording host text = parseData host data := by
  unfold parseRecording
  rw [h]

/-- The name of a lesson that was opened. -/
def lessonOf : Except Refusal Recording → Option Units
  | .ok recording => recording.info.lesson
  | .error _ => none

theorem parseData_longLesson :
    lessonOf (parseData (oneRun cutLesson (shortRecording longLesson).toJs)
        (shortRecording longLesson).toJs)
      ≠ lessonOf (.ok (shortRecording longLesson)) := by
  decide +kernel

/-- The blank at the end of a name that was cut is lost when the file is opened
again. -/
theorem blank_lost_on_reopening :
    ∃ host parts, SpellsNumbers host ∧
      host.parse (host.stringify (makeRecording host parts).toJs)
        = some (makeRecording host parts).toJs ∧
      (host.stringify (makeRecording host parts).toJs).head? = some 123 ∧
      parseRecording host (serializeRecording host (makeRecording host parts))
        ≠ .ok (makeRecording host parts) := by
  refine ⟨oneRun cutLesson (shortRecording longLesson).toJs, shortRun (units longLesson),
    oneRun_spells _ _, ?_, by rw [oneRun_stringify, shortText_head], fun h => ?_⟩
  · rw [makeRecording_shortRun]
    exact oneRun_parse _ _ _
  · have hparse (value written : Js) : (oneRun cutLesson value).parse
        (withoutMark ((oneRun cutLesson value).stringify written)) = some value := by
      rw [oneRun_stringify, withoutMark_of_brace (shortText_head _)]
      exact oneRun_parse cutLesson value written
    rw [makeRecording_shortRun, serializeRecording, parseRecording_of_parse (hparse _ _)] at h
    exact parseData_longLesson (congrArg lessonOf h)

end Questix.LabPage.RecordingCore

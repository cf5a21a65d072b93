/-
Questix.Lib.Dict — finite maps as a script builds them: in a loop over the
items of another one, or over a list of names, with checks that can fail.

A `Dict` is Mathlib's `AList`, so `d[k] = v` is `insert`, and `{**a, **b}` is
`b ∪ a`. Added are the comprehensions and loops, each with the one lemma that
says what is found under a key afterwards. The order of the items is that of
the document they were read from; what a loop builds is only ever looked up.
-/
import Mathlib.Data.List.AList
import Mathlib.Tactic.Common

namespace Questix.Lib

/-- Values of `α` under keys of `κ`. -/
abbrev Dict (κ α : Type*) := AList fun _ : κ => α

namespace Dict

variable {κ α β γ δ ε : Type*}

/-- Every value is replaced. -/
def mapVal (f : α → β) (d : Dict κ α) : Dict κ β where
  entries := d.entries.map fun e => ⟨e.1, f e.2⟩
  nodupKeys := by
    have hkeys : (d.entries.map fun e => (⟨e.1, f e.2⟩ : Sigma fun _ : κ => β)).keys =
        d.entries.keys := by
      simp [List.keys, Function.comp_def]
    rw [List.NodupKeys, hkeys]
    exact d.nodupKeys

/-- The items whose keys are wanted. -/
def restrict (p : κ → Bool) (d : Dict κ α) : Dict κ α where
  entries := d.entries.filter fun e => p e.1
  nodupKeys := d.nodupKeys.sublist List.filter_sublist

variable [DecidableEq κ]

/-- Equality by the items, which can be evaluated. -/
instance [DecidableEq α] : DecidableEq (Dict κ α) := fun d d' =>
  decidable_of_iff (d.entries = d'.entries) AList.ext_iff.symm

/-- The keys are exactly the given ones. -/
def hasKeys (d : Dict κ α) (ks : List κ) : Bool :=
  d.keys.all (· ∈ ks) && ks.all (· ∈ d.keys)

/-- What is kept of an item goes under the item's key. -/
def keep (f : κ → α → Option β) (result : Dict κ β) (e : Sigma fun _ : κ => α) : Dict κ β :=
  match f e.1 e.2 with
  | some b => result.insert e.1 b
  | none => result

/-- A loop that keeps something of each item, or nothing. -/
def collect (f : κ → α → Option β) (d : Dict κ α) : Dict κ β :=
  d.entries.foldl (keep f) ∅

/-- A loop that updates a map with what each item has to give. -/
def gather [DecidableEq δ] (f : κ → α → Dict δ β) (d : Dict κ α) : Dict δ β :=
  d.entries.foldl (fun result e => f e.1 e.2 ∪ result) ∅

/-- A loop that makes a value for each name, unless one of them fails. -/
def tryBuild (name : γ → κ) (f : γ → Except ε α) (gs : List γ) : Except ε (Dict κ α) :=
  gs.foldlM (fun d g => (f g).map fun a => d.insert (name g) a) ∅

/-! ## What is found under a key -/

theorem lookup_union (a b : Dict κ α) (k : κ) :
    (a ∪ b).lookup k = (a.lookup k).or (b.lookup k) := by
  by_cases h : k ∈ a
  · obtain ⟨v, hv⟩ := Option.isSome_iff_exists.1 (AList.lookup_isSome.2 h)
    rw [AList.lookup_union_left h, hv, Option.some_or]
  · rw [AList.lookup_union_right h, AList.lookup_eq_none.2 h, Option.none_or]

theorem dlookup_other {k k' : κ} {a : α} {l : List (Sigma fun _ : κ => α)} (h : k ≠ k') :
    List.dlookup k (⟨k', a⟩ :: l) = List.dlookup k l :=
  List.dlookup_cons_ne l _ h

theorem lookup_mapVal (f : α → β) (d : Dict κ α) (k : κ) :
    (d.mapVal f).lookup k = (d.lookup k).map f := by
  obtain ⟨l, hl⟩ := d
  show List.dlookup k (l.map fun e => (⟨e.1, f e.2⟩ : Sigma fun _ : κ => β)) =
    (List.dlookup k l).map f
  clear hl
  induction l with
  | nil => rfl
  | cons e l ih =>
    obtain ⟨k', v⟩ := e
    by_cases hk : k = k'
    · subst hk
      simp
    · simp [dlookup_other hk, ih]

theorem lookup_restrict (p : κ → Bool) (d : Dict κ α) (k : κ) :
    (d.restrict p).lookup k = if p k then d.lookup k else none := by
  obtain ⟨l, hl⟩ := d
  show List.dlookup k (l.filter fun e => p e.1) = if p k then List.dlookup k l else none
  clear hl
  induction l with
  | nil => simp
  | cons e l ih =>
    obtain ⟨k', v⟩ := e
    by_cases hk : k = k'
    · subst hk
      by_cases hp : p k <;> simp [hp, ih]
    · by_cases hp : p k' <;> simp [hp, ih, dlookup_other hk]

theorem foldl_view {σ τ : Type*} (step : σ → (Sigma fun _ : κ => α) → σ) (view : σ → τ)
    (change : α → τ → τ) {k : κ} (hthere : ∀ s a, view (step s ⟨k, a⟩) = change a (view s))
    (helse : ∀ s e, k ≠ e.1 → view (step s e) = view s) :
    ∀ (l : List (Sigma fun _ : κ => α)), l.NodupKeys → ∀ s,
      view (l.foldl step s) = (List.dlookup k l).elim (view s) fun a => change a (view s) := by
  intro l
  induction l with
  | nil => simp
  | cons e l ih =>
    intro hl s
    obtain ⟨k', a⟩ := e
    obtain ⟨hfresh, hl⟩ := List.nodupKeys_cons.1 hl
    rw [List.foldl_cons, ih hl]
    by_cases hk : k = k'
    · subst hk
      rw [List.dlookup_eq_none.2 hfresh, List.dlookup_cons_eq, Option.elim_none,
        Option.elim_some, hthere]
    · rw [List.dlookup_cons_ne _ _ hk, helse _ _ hk]

theorem lookup_keep_self (f : κ → α → Option β) (r : Dict κ β) (k : κ) (a : α) :
    (keep f r ⟨k, a⟩).lookup k = (f k a).or (r.lookup k) := by
  unfold keep
  cases f k a <;> simp

theorem lookup_keep_ne {f : κ → α → Option β} {r : Dict κ β} {k : κ}
    {e : Sigma fun _ : κ => α} (h : k ≠ e.1) : (keep f r e).lookup k = r.lookup k := by
  unfold keep
  cases f e.1 e.2 with
  | none => rfl
  | some b => exact AList.lookup_insert_ne h

theorem lookup_collect (f : κ → α → Option β) (d : Dict κ α) (k : κ) :
    (d.collect f).lookup k = (d.lookup k).bind (f k) := by
  have hloop := foldl_view (keep f) (AList.lookup k) (fun a v => (f k a).or v)
    (fun r a => lookup_keep_self f r k a) (fun r e h => lookup_keep_ne h) d.entries d.nodupKeys ∅
  rw [collect, hloop, AList.lookup_empty]
  show Option.elim (d.lookup k) none (fun a => (f k a).or none) = _
  cases d.lookup k <;> simp

theorem lookup_gather [DecidableEq δ] {f : κ → α → Dict δ β} {n : κ} {x : δ}
    (honly : ∀ k a, n ≠ k → (f k a).lookup x = none) (d : Dict κ α) :
    (d.gather f).lookup x = (d.lookup n).bind fun a => (f n a).lookup x := by
  have hloop := foldl_view (fun r e => f e.1 e.2 ∪ r) (AList.lookup x)
    (fun a v => ((f n a).lookup x).or v) (fun r a => lookup_union _ _ _)
    (fun r e h => by rw [lookup_union, honly e.1 e.2 h, Option.none_or]) d.entries d.nodupKeys ∅
  rw [gather, hloop, AList.lookup_empty]
  show Option.elim (d.lookup n) none (fun a => ((f n a).lookup x).or none) = _
  cases d.lookup n <;> simp

omit [DecidableEq κ] in
theorem gather_mapVal [DecidableEq δ] (f : κ → β → Dict δ γ) (g : α → β) (d : Dict κ α) :
    (d.mapVal g).gather f = d.gather fun k a => f k (g a) :=
  List.foldl_map

theorem mem_gather [DecidableEq δ] {f : κ → α → Dict δ β} {d : Dict κ α} {x : δ} :
    x ∈ d.gather f ↔ ∃ k a, d.lookup k = some a ∧ x ∈ f k a := by
  have hloop : ∀ (l : List (Sigma fun _ : κ => α)) (r : Dict δ β),
      x ∈ l.foldl (fun r e => f e.1 e.2 ∪ r) r ↔ x ∈ r ∨ ∃ e ∈ l, x ∈ f e.1 e.2 := by
    intro l
    induction l with
    | nil => simp
    | cons e l ih =>
      intro r
      rw [List.foldl_cons, ih, AList.mem_union, List.exists_mem_cons_iff]
      tauto
  rw [gather, hloop]
  constructor
  · rintro (h | ⟨⟨k, a⟩, he, hx⟩)
    · exact absurd h (AList.notMem_empty x)
    · exact ⟨k, a, AList.mem_lookup_iff.2 he, hx⟩
  · rintro ⟨k, a, hk, hx⟩
    exact Or.inr ⟨⟨k, a⟩, AList.mem_lookup_iff.1 hk, hx⟩

omit [DecidableEq κ] in
theorem isEmpty_iff {d : Dict κ α} : d.entries.isEmpty = true ↔ ∀ k, k ∉ d := by
  rw [List.isEmpty_iff]
  constructor
  · intro h k hk
    rw [AList.mem_keys, AList.keys, h] at hk
    cases hk
  · intro h
    apply List.eq_nil_iff_forall_not_mem.2
    intro e he
    exact h e.1 (AList.mem_keys.2 (List.mem_keys_of_mem he))

theorem foldlM_build {name : γ → κ} {f : γ → Except ε α} :
    ∀ (gs : List γ) (acc d : Dict κ α), (gs.map name).Nodup →
      gs.foldlM (fun d g => (f g).map fun a => d.insert (name g) a) acc = .ok d →
      (∀ g ∈ gs, ∃ a, f g = .ok a ∧ d.lookup (name g) = some a) ∧
        ∀ k, k ∉ gs.map name → d.lookup k = acc.lookup k := by
  intro gs
  induction gs with
  | nil =>
    intro acc d _ h
    cases h
    exact ⟨nofun, fun _ _ => rfl⟩
  | cons g gs ih =>
    intro acc d hnames h
    obtain ⟨hfresh, hnames⟩ := List.nodup_cons.1 hnames
    rw [List.foldlM_cons] at h
    cases hg : f g with
    | error e =>
      rw [hg] at h
      cases h
    | ok a =>
      rw [hg] at h
      obtain ⟨hthere, helse⟩ := ih (acc.insert (name g) a) d hnames h
      constructor
      · intro g' hg'
        rcases List.mem_cons.1 hg' with rfl | hg'
        · exact ⟨a, hg, by rw [helse _ hfresh, AList.lookup_insert]⟩
        · exact hthere g' hg'
      · intro k hk
        rw [List.map_cons, List.mem_cons, not_or] at hk
        rw [helse k hk.2, AList.lookup_insert_ne hk.1]

theorem tryBuild_ok {name : γ → κ} {f : γ → Except ε α} {gs : List γ} {d : Dict κ α}
    (h : tryBuild name f gs = .ok d) (hnames : (gs.map name).Nodup) :
    (∀ g ∈ gs, ∃ a, f g = .ok a ∧ d.lookup (name g) = some a) ∧
      ∀ k, k ∉ gs.map name → d.lookup k = none :=
  foldlM_build gs ∅ d hnames h

theorem mem_iff_lookup (d : Dict κ α) (k : κ) : k ∈ d ↔ ∃ v, d.lookup k = some v := by
  rw [← AList.lookup_isSome, Option.isSome_iff_exists]

theorem hasKeys_iff (d : Dict κ α) (ks : List κ) :
    d.hasKeys ks = true ↔ ∀ k, k ∈ d ↔ k ∈ ks := by
  simp only [hasKeys, Bool.and_eq_true, List.all_eq_true, decide_eq_true_eq, ← AList.mem_keys]
  constructor
  · rintro ⟨hd, hks⟩ k
    exact ⟨hd k, hks k⟩
  · intro h
    exact ⟨fun k => (h k).1, fun k => (h k).2⟩

end Dict

end Questix.Lib

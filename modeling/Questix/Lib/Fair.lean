/-
Questix.Lib.Fair — runs without end, and what must happen in a fair one.

A run without end is a sequence of events; `stateAt` and `stepAt` are the
states and the steps of it. In a pool it is fair when every thread under way
advances in the end. `Fair.leads` is the rule for one move of a thread: what
the other moves keep until the thread advances, and what it makes of it then,
holds in the end, unless the goal comes first.
-/
import Mathlib.Data.Nat.Find
import Questix.Lib.Pool
import Questix.Lib.Trace

namespace Questix.Lib

variable {σ τ ε χ ω : Type*}

section Sequence

variable {f : σ → ε → σ × ω} {s : σ} {e : ℕ → ε}

/-- The state before event `n` of the run of `f` from `s` over the events `e`. -/
def stateAt (f : σ → ε → σ × ω) (s : σ) (e : ℕ → ε) : ℕ → σ
  | 0 => s
  | n + 1 => (f (stateAt f s e n) (e n)).1

/-- Step `n` of the run. -/
def stepAt (f : σ → ε → σ × ω) (s : σ) (e : ℕ → ε) (n : ℕ) : Step σ ε ω :=
  stepOf f (stateAt f s e n) (e n)

theorem stateAt_succ (n : ℕ) : stateAt f s e (n + 1) = (f (stateAt f s e n) (e n)).1 := rfl

theorem stateAt_invariant {I : σ → Prop} (h : I s) (step : ∀ s e, I s → I (f s e).1) :
    ∀ n, I (stateAt f s e n)
  | 0 => h
  | n + 1 => step _ _ (stateAt_invariant h step n)

theorem stateAt_until {A : σ → Prop} {goal : ℕ → Prop}
    (keep : ∀ n, ¬ goal n → A (stateAt f s e n) → A (stateAt f s e (n + 1)))
    {n m : ℕ} (hnm : n ≤ m) (hA : A (stateAt f s e n)) (hgoal : ∀ k, n ≤ k → k < m → ¬ goal k) :
    A (stateAt f s e m) := by
  induction m, hnm using Nat.le_induction with
  | base => exact hA
  | succ m hnm ih =>
    have hm : A (stateAt f s e m) := ih fun k hnk hk => hgoal k hnk (Nat.lt_succ_of_lt hk)
    exact keep m (hgoal m hnm (Nat.lt_succ_self m)) hm

end Sequence

namespace Program

variable [DecidableEq τ] {P : Program σ τ ε χ ω} {p : Pool σ τ} {x : PoolEvent ε τ χ}
  {e : ℕ → PoolEvent ε τ χ} {t : τ}

/-- Every thread under way advances in the end. -/
def Fair (P : Program σ τ ε χ ω) (p : Pool σ τ) (e : ℕ → PoolEvent ε τ χ) : Prop :=
  ∀ n, ∀ t ∈ (stateAt P.step p e n).threads, ∃ m, n ≤ m ∧ ∃ c, e m = .advance t c

theorem mem_step (ht : t ∈ p.threads) (hx : ∀ c, x ≠ .advance t c) :
    t ∈ (P.step p x).1.threads := by
  cases x with
  | arrive e => exact Multiset.mem_add.2 (.inr ht)
  | advance u c =>
    by_cases hu : u ∈ p.threads
    · have htu : t ≠ u := by
        rintro rfl
        exact hx c rfl
      simp [step, hu, Multiset.mem_erase_of_ne htu, ht]
    · rw [step_absent hu]
      exact ht

/-- In a fair run, what is kept (`A`) until a thread advances and becomes `B`
with its move comes to `B`, unless the goal comes before. -/
theorem Fair.leads (hfair : P.Fair p e) {A B : Pool σ τ → Prop} {goal : ℕ → Prop}
    (keep : ∀ m, ¬ goal m → A (stateAt P.step p e m) → A (stateAt P.step p e (m + 1)))
    (move : ∀ m c, ¬ goal m → A (stateAt P.step p e m) → t ∈ (stateAt P.step p e m).threads →
      e m = .advance t c → B (stateAt P.step p e (m + 1)))
    {n : ℕ} (hA : A (stateAt P.step p e n)) (ht : t ∈ (stateAt P.step p e n).threads) :
    ∃ m, n ≤ m ∧ (goal m ∨ B (stateAt P.step p e m)) := by
  classical
  by_contra hno
  push Not at hno
  have hgoal : ∀ k, n ≤ k → ¬ goal k := fun k hk => (hno k hk).1
  obtain ⟨m, ⟨hnm, c, hm⟩, hfirst⟩ : ∃ m, (n ≤ m ∧ ∃ c, e m = .advance t c) ∧
      ∀ k, n ≤ k → k < m → ∀ c, e k ≠ .advance t c := by
    have hex := hfair n t ht
    refine ⟨Nat.find hex, Nat.find_spec hex, ?_⟩
    intro k hnk hk c hc
    exact Nat.find_min hex hk ⟨hnk, c, hc⟩
  have hAm : A (stateAt P.step p e m) :=
    stateAt_until keep hnm hA fun k hnk _ => hgoal k hnk
  have htm : t ∈ (stateAt P.step p e m).threads := by
    have hkeep : ∀ k, ¬ (∃ c, e k = .advance t c) →
        t ∈ (stateAt P.step p e k).threads → t ∈ (stateAt P.step p e (k + 1)).threads :=
      fun k hk hmem => mem_step hmem fun c hc => hk ⟨c, hc⟩
    refine stateAt_until (A := fun p : Pool σ τ => t ∈ p.threads) hkeep hnm ht ?_
    intro k hnk hk ⟨c, hc⟩
    exact hfirst k hnk hk c hc
  exact (hno (m + 1) (hnm.trans (Nat.le_succ m))).2 (move m c (hgoal m hnm) hAm htm hm)

end Program

end Questix.Lib

/-
Questix.Lib.Pool — threads over a shared state.

A pool is a shared state and the threads that are under way. A thread is what
it does next; advancing it changes the shared state and replaces the thread by
what comes after it: itself further on, nothing, or more threads. Events from
outside (`arrive`) bring new threads. Any thread may be the next to advance, so
a run of the pool is one interleaving, and a result about all runs holds for
every interleaving.

The threads are a multiset: an invariant may take the thread that moves to be
the first (`step_invariant`), and what the threads hold together is a sum.
-/
import Mathlib.Data.Multiset.AddSub
import Mathlib.Tactic.Common

namespace Questix.Lib

variable {σ τ ε χ ω : Type*}

/-- A shared state and the threads under way. -/
structure Pool (σ τ : Type*) where
  shared : σ
  threads : Multiset τ

/-- What comes from outside, or the next move of a thread, with what the
environment decides in it. -/
inductive PoolEvent (ε τ χ : Type*) where
  | arrive (e : ε)
  | advance (t : τ) (c : χ)

/-- What the threads do: each move gives the new shared state, the threads it
leaves, and what it lets out. -/
structure Program (σ τ ε χ ω : Type*) where
  arrive : σ → ε → σ × List τ × ω
  run : σ → τ → χ → σ × List τ × ω

namespace Program

variable [DecidableEq τ] {P : Program σ τ ε χ ω} {p : Pool σ τ} {x : PoolEvent ε τ χ}

/-- One move; nothing moves when there is no such thread. -/
def step (P : Program σ τ ε χ ω) (p : Pool σ τ) : PoolEvent ε τ χ → Pool σ τ × Option ω
  | .arrive e =>
    let (s, new, out) := P.arrive p.shared e
    (⟨s, new + p.threads⟩, some out)
  | .advance t c =>
    if t ∈ p.threads then
      let (s, new, out) := P.run p.shared t c
      (⟨s, new + p.threads.erase t⟩, some out)
    else (p, none)

theorem step_advance {t : τ} (ht : t ∈ p.threads) (c : χ) :
    ∃ l, p.threads = t ::ₘ l ∧ P.step p (.advance t c) =
      (⟨(P.run p.shared t c).1, (P.run p.shared t c).2.1 + l⟩, some (P.run p.shared t c).2.2) :=
  ⟨p.threads.erase t, (Multiset.cons_erase ht).symm, by simp [step, ht]⟩

theorem step_absent {t : τ} (ht : t ∉ p.threads) (c : χ) :
    P.step p (.advance t c) = (p, none) := by
  simp [step, ht]

theorem step_invariant {I : σ → Multiset τ → Prop} (h : I p.shared p.threads)
    (arrive : ∀ e, x = .arrive e →
      I (P.arrive p.shared e).1 ((P.arrive p.shared e).2.1 + p.threads))
    (run : ∀ t l c, x = .advance t c → p.threads = t ::ₘ l →
      I (P.run p.shared t c).1 ((P.run p.shared t c).2.1 + l)) :
    I (P.step p x).1.shared (P.step p x).1.threads := by
  cases x with
  | arrive e => exact arrive e rfl
  | advance t c =>
    by_cases ht : t ∈ p.threads
    · obtain ⟨l, hl, hstep⟩ := step_advance (P := P) ht c
      rw [hstep]
      exact run t l c rfl hl
    · rw [step_absent ht]
      exact h

end Program

end Questix.Lib

/-
Questix.Lib.Walk — walks of a relation whose steps let out lists of outputs.

An abstract machine is a relation `R k out k'`: from `k` to `k'`, letting out
`out`. A `Walk` is any number of steps, with the outputs of all of them in
order. `Walk.invariant` lifts what every step keeps, of the outputs so far
and the state, to walks: it is the rule by which a concrete machine whose
operations are walks inherits what is proved of the abstract one.
-/
import Mathlib.Data.List.Basic

namespace Questix.Lib

variable {κ ω : Type*} {R : κ → List ω → κ → Prop} {k k' k'' : κ} {out out' : List ω}

/-- Any number of steps of `R`, and what they let out. -/
inductive Walk (R : κ → List ω → κ → Prop) : κ → List ω → κ → Prop
  | refl (k : κ) : Walk R k [] k
  | tail {k k' k'' : κ} {out out' : List ω} :
      Walk R k out k' → R k' out' k'' → Walk R k (out ++ out') k''

theorem Walk.tail_nil (h : Walk R k out k') (step : R k' [] k'') : Walk R k out k'' := by
  have hpath := h.tail step
  rwa [List.append_nil] at hpath

theorem Walk.invariant {I : List ω → κ → Prop}
    (step : ∀ past k out k', I past k → R k out k' → I (past ++ out) k')
    (h : Walk R k out k') : ∀ past, I past k → I (past ++ out) k' := by
  induction h with
  | refl =>
    intro past hI
    rwa [List.append_nil]
  | tail _ hstep ih =>
    intro past hI
    rw [← List.append_assoc]
    exact step _ _ _ _ (ih past hI) hstep

end Questix.Lib

/-
Questix.Lib.Act — imperative code over a state that also lets out outputs,
and the rules for reasoning about it.

`Act σ ω α` is a computation that reads and changes a state `σ`, lets out a
list of `ω` and returns an `α`. It is a monad, so that a member function of
the source is a `do` block with its reads, writes and early returns.

An assertion is a relation between the outputs let out so far and the state.
`wp x Q past s` says that running `x` in state `s`, after the outputs `past`,
ends in `Q`. The equations `wp_pure`, `wp_bind`, … run a `do` block forwards;
`wp_mono` replaces a call by what is known of the function called; `wp_each`
is the loop rule. `outputs_invariant` lifts an assertion that every operation
of a machine keeps to every run of the machine.
-/
import Questix.Lib.Trace

namespace Questix.Lib

/-- A computation over a state `σ` that lets out a list of `ω`. -/
def Act (σ ω α : Type) := σ → α × σ × List ω

namespace Act

variable {σ ω α β : Type}

instance : Monad (Act σ ω) where
  pure a := fun s => (a, s, [])
  bind x f := fun s => ((f (x s).1 (x s).2.1).1, (f (x s).1 (x s).2.1).2.1,
    (x s).2.2 ++ (f (x s).1 (x s).2.1).2.2)

instance : MonadStateOf σ (Act σ ω) where
  get := fun s => (s, s, [])
  set s := fun _ => ((), s, [])
  modifyGet f := fun s => ((f s).1, (f s).2, [])

def emit (e : ω) : Act σ ω Unit := fun s => ((), s, [e])

/-- Run `f` on every element; true when all of them returned true. -/
def each (f : β → Act σ ω Bool) : List β → Act σ ω Bool
  | [] => pure true
  | b :: bs => do
    let ok ← f b
    let oks ← each f bs
    return ok && oks

/-! ## Weakest preconditions -/

/-- After the outputs `past`, running `x` in `s` ends in `Q`. -/
def wp (x : Act σ ω α) (Q : α → List ω → σ → Prop) (past : List ω) (s : σ) : Prop :=
  Q (x s).1 (past ++ (x s).2.2) (x s).2.1

variable {Q Q' : α → List ω → σ → Prop} {past : List ω} {s : σ}

theorem wp_pure (a : α) : wp (pure a : Act σ ω α) Q past s ↔ Q a past s := by
  simp [wp, pure]

theorem wp_bind (x : Act σ ω β) (f : β → Act σ ω α) :
    wp (x >>= f) Q past s ↔ wp x (fun b past s => wp (f b) Q past s) past s := by
  simp [wp, bind]

theorem wp_get {Q : σ → List ω → σ → Prop} : wp (get : Act σ ω σ) Q past s ↔ Q s past s := by
  simp [wp, get, getThe, MonadStateOf.get]

theorem wp_modify {Q : PUnit → List ω → σ → Prop} (g : σ → σ) :
    wp (modify g : Act σ ω PUnit) Q past s ↔ Q ⟨⟩ past (g s) := by
  simp [wp, modify, modifyGet, MonadStateOf.modifyGet]

theorem wp_emit {Q : Unit → List ω → σ → Prop} (e : ω) :
    wp (emit e : Act σ ω Unit) Q past s ↔ Q () (past ++ [e]) s := Iff.rfl

theorem wp_ite (c : Prop) [Decidable c] (x y : Act σ ω α) :
    wp (if c then x else y) Q past s ↔ if c then wp x Q past s else wp y Q past s := by
  split <;> rfl

theorem wp_mono {x : Act σ ω α} (h : wp x Q past s)
    (imp : ∀ a past s, Q a past s → Q' a past s) : wp x Q' past s := imp _ _ _ h

/-! ## Triples -/

/-- From `P`, `x` ends in `Q`. -/
def Triple (P : List ω → σ → Prop) (x : Act σ ω α) (Q : α → List ω → σ → Prop) : Prop :=
  ∀ past s, P past s → wp x Q past s

theorem wp_each {I : List ω → σ → Prop} {f : β → Act σ ω Bool}
    (body : ∀ b, Triple I (f b) fun _ => I) (bs : List β) :
    Triple I (each f bs) fun _ => I := by
  induction bs with
  | nil =>
    intro past s h
    rw [each, wp_pure]
    exact h
  | cons b bs ih =>
    intro past s h
    simp only [each, wp_bind, wp_pure]
    refine wp_mono (body b past s h) ?_
    intro _ past s h
    exact ih past s h

/-! ## Machines whose operations are computations -/

variable {ε : Type}

/-- The machine that runs an operation on each event. -/
def machine (f : ε → Act σ ω Unit) : σ → ε → σ × List ω := fun s e => (f e s).2

theorem outputs_invariant {I : List ω → σ → Prop} {ok : σ → ε → Prop} {f : ε → Act σ ω Unit}
    (step : ∀ e past s, I past s → ok s e → wp (f e) (fun _ => I) past s) :
    ∀ (es : List ε) (past : List ω) (s : σ), I past s →
      (∀ t ∈ trace (machine f) s es, ok t.pre t.event) →
      I (past ++ (trace (machine f) s es).flatMap Step.out) (final (machine f) s es) ∧
      ∀ t ∈ trace (machine f) s es, ∃ past', I past' t.post
  | [], past, s, h, _ => by simpa using h
  | e :: es, past, s, h, hok => by
      have hnext : I (past ++ (machine f s e).2) (machine f s e).1 :=
        step e past s h (hok (stepOf (machine f) s e) (by simp))
      obtain ⟨hlast, hrest⟩ := outputs_invariant step es _ _ hnext
        (fun t ht => hok t (by simp [ht]))
      refine ⟨by simpa [stepOf, List.append_assoc] using hlast, ?_⟩
      intro t ht
      rcases List.mem_cons.1 ht with rfl | ht
      · exact ⟨_, hnext⟩
      · exact hrest t ht

end Act

end Questix.Lib

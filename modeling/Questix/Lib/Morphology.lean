/-
Questix.Lib.Morphology — erosion and dilation within an image, and the filters
that are made of them.

Outside the image there is nothing: a point near the edge is eroded whatever is
selected, and a dilation ends at the edge. So the two are no longer adjoint. They
are on the points that have all their neighbours in the image, where every erosion
lies, and that is enough for opening and closing to be idempotent (`opening_opening`,
`closing_closing`). What is lost is that closing keeps what it is given, except
for those points (`subset_closing`).
-/
import Mathlib.Data.Set.Basic

namespace Questix.Lib.Morphology

variable {α : Type*} (near : α → α → Prop) (image : Set α)

/-- All neighbours are selected. -/
def erosion (s : Set α) : Set α := {p | p ∈ image ∧ ∀ q, near p q → q ∈ s}

/-- A neighbour is selected. -/
def dilation (s : Set α) : Set α := {p | p ∈ image ∧ ∃ q, near p q ∧ q ∈ s}

def opening (s : Set α) : Set α := dilation near image (erosion near image s)
def closing (s : Set α) : Set α := erosion near image (dilation near image s)

variable {near image} {s t : Set α}

theorem erosion_mono (h : s ⊆ t) : erosion near image s ⊆ erosion near image t :=
  fun _ hp => ⟨hp.1, fun q hq => h (hp.2 q hq)⟩

theorem dilation_mono (h : s ⊆ t) : dilation near image s ⊆ dilation near image t := by
  rintro p ⟨hp, q, hq, hs⟩
  exact ⟨hp, q, hq, h hs⟩

theorem opening_mono (h : s ⊆ t) : opening near image s ⊆ opening near image t :=
  dilation_mono (erosion_mono h)

theorem closing_mono (h : s ⊆ t) : closing near image s ⊆ closing near image t :=
  erosion_mono (dilation_mono h)

section

variable (symm : ∀ p q, near p q → near q p)
include symm

theorem opening_subset : opening near image s ⊆ s := by
  rintro p ⟨-, q, hpq, hq⟩
  exact hq.2 p (symm p q hpq)

theorem erosion_opening (hs : s ⊆ image) :
    erosion near image (opening near image s) = erosion near image s := by
  refine Set.Subset.antisymm (erosion_mono (opening_subset symm)) ?_
  rintro p ⟨hp, hall⟩
  exact ⟨hp, fun q hpq => ⟨hs (hall q hpq), p, symm p q hpq, hp, hall⟩⟩

theorem opening_opening (hs : s ⊆ image) :
    opening near image (opening near image s) = opening near image s :=
  congrArg (dilation near image) (erosion_opening symm hs)

theorem closing_closing :
    closing near image (closing near image s) = closing near image s :=
  erosion_opening symm fun _ hp => hp.1

theorem subset_closing (hs : s ⊆ image) (hall : ∀ p ∈ s, ∀ q, near p q → q ∈ image) :
    s ⊆ closing near image s :=
  fun p hp => ⟨hs hp, fun q hpq => ⟨hall p hp q hpq, p, symm p q hpq, hp⟩⟩

theorem closing_opening_idem (hs : s ⊆ image) (hall : ∀ p ∈ s, ∀ q, near p q → q ∈ image) :
    closing near image (opening near image (closing near image (opening near image s)))
      = closing near image (opening near image s) := by
  have hsub : opening near image s ⊆ s := opening_subset symm
  refine Set.Subset.antisymm ?_ ?_
  · calc closing near image (opening near image (closing near image (opening near image s)))
        ⊆ closing near image (closing near image (opening near image s)) :=
          closing_mono (opening_subset symm)
      _ = closing near image (opening near image s) := closing_closing symm
  · refine closing_mono ?_
    calc opening near image s
        = opening near image (opening near image s) := (opening_opening symm hs).symm
      _ ⊆ opening near image (closing near image (opening near image s)) :=
        opening_mono (subset_closing symm (hsub.trans hs) fun p hp => hall p (hsub hp))

end

end Questix.Lib.Morphology

/-
Questix.UartJoyDriver.DropoutTheorems — what is left of an axis or a button
when the receiver drops frames.

Both loops are instances of one, so everything is proved once, over a list of
channels of the message (`channels`) and an idea of what is active. What a
channel holds is told from the frames alone: which was its last active frame,
and how many came since (`Tracked`). Only frames of one shape count; a message
of another size starts the channels anew.
-/
import Questix.Lib.Trace
import Questix.UartJoyDriver.DropoutFilter

namespace Questix.UartJoyDriver.DropoutFilter

open Questix.Lib

/-! ## The specification -/

section Specification

variable {α : Type} (channels : Joy → List α) (active : α → Bool)

/-- Frame `a` was active at channel `i`, and none of the frames since. -/
structure ActiveBefore (i : ℕ) (a : Joy) (since : List Joy) (v : α) : Prop where
  value : (channels a)[i]? = some v
  wasActive : active v = true
  inactiveSince : ∀ joy ∈ since, ∀ raw, (channels joy)[i]? = some raw → active raw = false

/-- The frames since `a` have as many channels as `a`. -/
def SameShape (a : Joy) (since : List Joy) : Prop :=
  ∀ joy ∈ since, (channels joy).length = (channels a).length

/-- What the filter makes of `joy` after the frames `past`: an active value as
it is, else the last active value while fewer than `confirmFrames` frames
followed it, else a release. -/
structure ReleasesExactly (released : α) (confirmFrames : ℤ) (past : List Joy) (joy out : Joy) :
    Prop where
  size : (channels out).length = (channels joy).length
  passes : ∀ (i : ℕ) raw, (channels joy)[i]? = some raw → active raw = true →
    (channels out)[i]? = some raw
  /-- Nothing but a release or the last active value. -/
  holdsOnly : ∀ (i : ℕ) raw, (channels joy)[i]? = some raw → active raw = false →
    (channels out)[i]? = some released ∨
      ∃ before a since v, past = before ++ a :: since ∧
        ActiveBefore channels active i a (since ++ [joy]) v ∧
        SameShape channels a (since ++ [joy]) ∧ (since.length + 1 : ℤ) < confirmFrames ∧
        (channels out)[i]? = some v
  /-- Held until the count is reached, and not one frame longer. -/
  holdsUntil : ∀ (i : ℕ) before a since v, past = before ++ a :: since →
    ActiveBefore channels active i a (since ++ [joy]) v → SameShape channels a (since ++ [joy]) →
      (channels out)[i]? = some (if (since.length + 1 : ℤ) < confirmFrames then v else released)

end Specification

section Channel

variable {α : Type} {channels : Joy → List α} {active : α → Bool} {released : α} {frames : ℤ}
  {size i : ℕ} {past : List Joy} {joy : Joy} {raw : α} {c : Channel α}

/-- What a channel holds after the frames `past`, the last of them of `size`
channels. -/
structure Tracked (channels : Joy → List α) (active : α → Bool) (released : α) (frames : ℤ)
    (size : ℕ) (past : List Joy) (i : ℕ) (c : Channel α) : Prop where
  holds : ∀ before a since v, past = before ++ a :: since →
    ActiveBefore channels active i a since v → SameShape channels a since →
    (channels a).length = size →
      if (since.length : ℤ) < frames then c = { filtered := v, releaseCount := since.length }
      else c.filtered = released
  holdsOnly : c.filtered = released ∨ ∃ before a since v, past = before ++ a :: since ∧
    ActiveBefore channels active i a since v ∧ SameShape channels a since ∧
    (channels a).length = size ∧ (since.length : ℤ) < frames ∧ c.filtered = v

theorem holdChannel_active (h : active raw = true) :
    holdChannel active released frames raw c = { filtered := raw } := if_pos h

theorem holdChannel_held {v : α} {n : ℤ} (h : active raw = false) (hv : active v = true) :
    holdChannel active released frames raw { filtered := v, releaseCount := n } =
      if n + 1 < frames then { filtered := v, releaseCount := n + 1 }
      else { filtered := released } := by
  by_cases hn : n + 1 < frames
  · simp [holdChannel, h, hv, hn]
  · simp [holdChannel, h, hv, hn, not_lt.1 hn]

theorem holdChannel_released (h : active raw = false) (hc : c.filtered = released) :
    (holdChannel active released frames raw c).filtered = released := by
  unfold holdChannel
  rw [h]
  split_ifs <;> first | contradiction | rfl | exact hc

theorem tracked_fresh (h : ∀ last ∈ past.getLast?, (channels last).length ≠ size) :
    Tracked channels active released frames size past i { filtered := released } where
  holds := by
    intro before a since v hpast _ hshape hsize
    have hlast : past.getLast? = (a :: since).getLast? := by
      rw [hpast, List.getLast?_append_of_ne_nil _ (List.cons_ne_nil a since)]
    obtain ⟨last, hmem⟩ : ∃ last, (a :: since).getLast? = some last :=
      ⟨_, List.getLast?_eq_some_getLast (List.cons_ne_nil a since)⟩
    have hlen : (channels last).length = size := by
      rcases List.mem_cons.1 (List.mem_of_getLast? hmem) with rfl | hin
      · exact hsize
      · rw [hshape last hin, hsize]
    exact absurd hlen (h last (hlast ▸ hmem))
  holdsOnly := Or.inl rfl

theorem ActiveBefore.init {a : Joy} {since : List Joy} {v : α}
    (h : ActiveBefore channels active i a (since ++ [joy]) v) :
    ActiveBefore channels active i a since v :=
  ⟨h.value, h.wasActive, fun j hj => h.inactiveSince j (List.mem_append_left _ hj)⟩

theorem ActiveBefore.snoc {a : Joy} {since : List Joy} {v : α}
    (h : ActiveBefore channels active i a since v) (hraw : (channels joy)[i]? = some raw)
    (hinactive : active raw = false) : ActiveBefore channels active i a (since ++ [joy]) v := by
  refine ⟨h.value, h.wasActive, ?_⟩
  intro j hj r hr
  rcases List.mem_append.1 hj with hj | hj
  · exact h.inactiveSince j hj r hr
  · rw [List.mem_singleton.1 hj, hraw] at hr
    cases hr
    exact hinactive

theorem SameShape.snoc {a : Joy} {since : List Joy} (h : SameShape channels a since)
    (hjoy : (channels joy).length = (channels a).length) :
    SameShape channels a (since ++ [joy]) := by
  intro j hj
  rcases List.mem_append.1 hj with hj | hj
  · exact h j hj
  · rw [List.mem_singleton.1 hj, hjoy]

/-- One frame more. -/
theorem Tracked.step (hframes : 0 < frames)
    (h : Tracked channels active released frames size past i c)
    (hsize : (channels joy).length = size) (hraw : (channels joy)[i]? = some raw) :
    Tracked channels active released frames size (past ++ [joy]) i
      (holdChannel active released frames raw c) where
  holds := by
    intro before a since v hpast hactive hshape ha
    rcases snoc_eq_append_cons hpast with ⟨rfl, rfl, rfl⟩ | ⟨since, rfl, rfl⟩
    · -- the new frame is the active one
      have hv : raw = v := Option.some.inj (hraw.symm.trans hactive.value)
      subst hv
      rw [List.length_nil, Nat.cast_zero, if_pos hframes, holdChannel_active hactive.wasActive]
    · have hinactive : active raw = false := hactive.inactiveSince joy (by simp) raw hraw
      have hbefore := h.holds before a since v rfl hactive.init
        (fun j hj => hshape j (List.mem_append_left _ hj)) ha
      rw [List.length_append, List.length_singleton, Nat.cast_add, Nat.cast_one]
      split_ifs at hbefore with hlt
      · rw [hbefore, holdChannel_held hinactive hactive.wasActive]
        split_ifs <;> rfl
      · rw [if_neg (by omega)]
        exact holdChannel_released hinactive hbefore
  holdsOnly := by
    cases hactive : active raw with
    | true =>
      refine Or.inr ⟨past, joy, [], raw, rfl, ⟨hraw, hactive, nofun⟩, nofun, hsize, by simpa, ?_⟩
      rw [holdChannel_active hactive]
    | false =>
      rcases h.holdsOnly with hc | ⟨before, a, since, v, hpast, hbefore, hshape, ha, hlt, hv⟩
      · exact Or.inl (holdChannel_released hactive hc)
      have hc := h.holds before a since v hpast hbefore hshape ha
      rw [if_pos hlt] at hc
      rw [hc, holdChannel_held hactive hbefore.wasActive]
      split_ifs with hmore
      · refine Or.inr ⟨before, a, since ++ [joy], v, ?_, hbefore.snoc hraw hactive,
          hshape.snoc (hsize.trans ha.symm), ha, ?_, rfl⟩
        · rw [hpast, List.append_assoc, List.cons_append]
        · simpa using hmore
      · exact Or.inl rfl

/-! ## The channels of a message -/

/-- All channels after the frames `past`. -/
structure TrackedAll (channels : Joy → List α) (active : α → Bool) (released : α) (frames : ℤ)
    (past : List Joy) (cs : List (Channel α)) : Prop where
  size : ∀ last ∈ past.getLast?, (channels last).length = cs.length
  tracked : ∀ (i : ℕ) c, cs[i]? = some c →
    Tracked channels active released frames cs.length past i c

variable {cs : List (Channel α)} {confirmFrames : ℤ}

theorem trackedAll_reset (n : ℕ) :
    TrackedAll channels active released frames [] (List.replicate n { filtered := released }) where
  size := nofun
  tracked := by
    intro i c hc
    rw [List.eq_of_mem_replicate (List.mem_of_getElem? hc)]
    exact tracked_fresh nofun

theorem length_sized (released : α) (size : ℕ) (cs : List (Channel α)) :
    (sized released size cs).length = size := by
  unfold sized
  split_ifs with h
  · exact List.length_replicate
  · exact not_ne_iff.1 h

theorem TrackedAll.sized (h : TrackedAll channels active released frames past cs)
    (hc : (sized released size cs)[i]? = some c) :
    Tracked channels active released frames size past i c := by
  unfold DropoutFilter.sized at hc
  split_ifs at hc with hsize
  · rw [List.eq_of_mem_replicate (List.mem_of_getElem? hc)]
    exact tracked_fresh fun last hlast => h.size last hlast ▸ hsize
  · exact not_ne_iff.1 hsize ▸ h.tracked i c hc

theorem length_holdChannels (raws : List α) :
    (holdChannels active released confirmFrames raws cs).length = raws.length := by
  rw [holdChannels, List.length_zipWith, length_sized, min_self]

theorem TrackedAll.step (joy : Joy)
    (h : TrackedAll channels active released (max 1 confirmFrames) past cs) :
    TrackedAll channels active released (max 1 confirmFrames) (past ++ [joy])
      (holdChannels active released confirmFrames (channels joy) cs) where
  size := by
    intro last hlast
    rw [List.getLast?_concat, Option.mem_some_iff] at hlast
    rw [length_holdChannels, ← hlast]
  tracked := by
    intro i c' hc'
    rw [length_holdChannels]
    rw [holdChannels, List.getElem?_zipWith_eq_some] at hc'
    obtain ⟨raw, c, hraw, hc, rfl⟩ := hc'
    exact (h.sized hc).step (by omega) rfl hraw

/-- What a tracked channel says of the message let out. -/
theorem TrackedAll.releasesExactly {out : Joy}
    (h : TrackedAll channels active released (max 1 confirmFrames) (past ++ [joy]) cs)
    (hout : channels out = cs.map Channel.filtered) :
    ReleasesExactly channels active released confirmFrames past joy out := by
  have hsize : (channels joy).length = cs.length := h.size joy (by simp)
  have hchannel : ∀ {i : ℕ} {raw}, (channels joy)[i]? = some raw → ∃ c, cs[i]? = some c ∧
      (channels out)[i]? = some c.filtered := by
    intro i raw hraw
    obtain ⟨hi, -⟩ := List.getElem?_eq_some_iff.1 hraw
    have hc : cs[i]? = some cs[i] := List.getElem?_eq_getElem (hsize ▸ hi)
    exact ⟨_, hc, by rw [hout, List.getElem?_map, hc]; rfl⟩
  constructor
  case size => rw [hout, List.length_map, hsize]
  case passes =>
    intro i raw hraw hactive
    obtain ⟨c, hc, hfiltered⟩ := hchannel hraw
    have hheld := (h.tracked i c hc).holds past joy [] raw rfl ⟨hraw, hactive, nofun⟩ nofun hsize
    rw [List.length_nil, Nat.cast_zero, if_pos (by omega)] at hheld
    rw [hfiltered, hheld]
  case holdsOnly =>
    intro i raw hraw hinactive
    obtain ⟨c, hc, hfiltered⟩ := hchannel hraw
    rw [hfiltered]
    rcases (h.tracked i c hc).holdsOnly with
      hreleased | ⟨before, a, since, v, hpast, hbefore, hshape, -, hlt, hv⟩
    · exact Or.inl (congrArg some hreleased)
    rcases snoc_eq_append_cons hpast with ⟨rfl, rfl, rfl⟩ | ⟨since, rfl, rfl⟩
    · have hboth : some raw = some v := hraw.symm.trans hbefore.value
      rw [Option.some.inj hboth, hbefore.wasActive] at hinactive
      cases hinactive
    · rw [List.length_append, List.length_singleton] at hlt
      exact Or.inr ⟨before, a, since, v, rfl, hbefore, hshape, by omega, congrArg some hv⟩
  case holdsUntil =>
    intro i before a since v hpast hbefore hshape
    have hlength : (channels joy).length = (channels a).length := hshape joy (by simp)
    obtain ⟨hi, -⟩ := List.getElem?_eq_some_iff.1 hbefore.value
    obtain ⟨c, hc, hfiltered⟩ :=
      hchannel (List.getElem?_eq_getElem (l := channels joy) (hlength ▸ hi))
    have hheld := (h.tracked i c hc).holds before a (since ++ [joy]) v
      (by rw [hpast, List.append_assoc, List.cons_append]) hbefore hshape
      (hlength.symm.trans hsize)
    rw [hfiltered]
    rw [List.length_append, List.length_singleton] at hheld
    by_cases hlt : (since.length + 1 : ℤ) < confirmFrames
    · rw [if_pos (by omega)] at hheld
      rw [hheld, if_pos hlt]
    · rw [if_neg (by omega)] at hheld
      rw [hheld, if_neg hlt]

end Channel

/-! ## The filter -/

/-- The filter after some frames. -/
def afterFrames (f : DropoutFilter) (frames : List Joy) : DropoutFilter :=
  frames.foldl (fun f joyMsg => (f.apply joyMsg).1) f

@[simp] theorem afterFrames_snoc (f : DropoutFilter) (past : List Joy) (joy : Joy) :
    f.afterFrames (past ++ [joy]) = ((f.afterFrames past).apply joy).1 := by
  simp [afterFrames]

theorem config_afterFrames (f : DropoutFilter) (frames : List Joy) :
    (f.afterFrames frames).config = f.config := by
  induction frames using List.reverseRecOn with
  | nil => rfl
  | append_singleton past joy ih =>
    rw [afterFrames_snoc]
    exact ih

theorem axisActive_afterFrames (f : DropoutFilter) (frames : List Joy) :
    (f.afterFrames frames).axisActive = f.axisActive := by
  unfold axisActive
  rw [config_afterFrames]

theorem trackedAll_afterFrames (config : DropoutConfig) (axisCount buttonCount : ℕ)
    (past : List Joy) :
    let start := reset axisCount buttonCount { config := config }
    TrackedAll Joy.axes start.axisActive 0 (max 1 config.axisReleaseConfirmFrames) past
        (start.afterFrames past).axes ∧
      TrackedAll Joy.buttons buttonPressed 0 (max 1 config.buttonReleaseConfirmFrames) past
        (start.afterFrames past).buttons := by
  intro start
  induction past using List.reverseRecOn with
  | nil => exact ⟨trackedAll_reset axisCount, trackedAll_reset buttonCount⟩
  | append_singleton past joy ih =>
    have hconfig : (start.afterFrames past).config = config := config_afterFrames start past
    have haxis : (start.afterFrames past).axisActive = start.axisActive :=
      axisActive_afterFrames start past
    rw [afterFrames_snoc]
    constructor
    · have hstep := ih.1.step joy
      rwa [← haxis, ← hconfig] at hstep ⊢
    · have hstep := ih.2.step joy
      rwa [← hconfig] at hstep ⊢

/-- **The filter holds the last active value of an axis or a button for fewer
than the configured number of frames, and releases it then.** -/
theorem apply_exact (config : DropoutConfig) (axisCount buttonCount : ℕ) (past : List Joy)
    (joy : Joy) :
    let f := (reset axisCount buttonCount { config := config }).afterFrames past
    ReleasesExactly Joy.axes (fun raw => decide (config.holdAxisThreshold ≤ raw.abs)) 0
        config.axisReleaseConfirmFrames past joy (f.apply joy).2 ∧
      ReleasesExactly Joy.buttons buttonPressed 0 config.buttonReleaseConfirmFrames past joy
        (f.apply joy).2 := by
  obtain ⟨haxes, hbuttons⟩ :=
    trackedAll_afterFrames config axisCount buttonCount (past ++ [joy])
  rw [afterFrames_snoc] at haxes hbuttons
  exact ⟨haxes.releasesExactly rfl, hbuttons.releasesExactly rfl⟩

/-- A message with another number of buttons forgets a press at once. -/
theorem press_forgotten_with_shape :
    ¬ ∀ (config : DropoutConfig) (axisCount buttonCount : ℕ) (past : List Joy) (joy : Joy)
      (i : ℕ) (before : List Joy) (a : Joy) (since : List Joy) (v : ℤ),
      past = before ++ a :: since →
        ActiveBefore Joy.buttons buttonPressed i a (since ++ [joy]) v →
          (((reset axisCount buttonCount { config := config }).afterFrames past).apply
            joy).2.buttons[i]? =
              some (if (since.length + 1 : ℤ) < config.buttonReleaseConfirmFrames then v
                else 0) := by
  intro h
  have hpressed : ActiveBefore Joy.buttons buttonPressed 0 { buttons := [1] }
      ([] ++ [{ buttons := [0, 0] }]) 1 :=
    ⟨rfl, rfl, by decide⟩
  have hheld := h {} 8 16 [{ buttons := [1] }] { buttons := [0, 0] } 0 [] _ [] 1 rfl hpressed
  exact absurd hheld (by decide)

end Questix.UartJoyDriver.DropoutFilter

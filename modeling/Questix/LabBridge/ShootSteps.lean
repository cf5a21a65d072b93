/-
Questix.LabBridge.ShootSteps — what the operations of a launcher session keep.

`Settles` is what a look at the blockers may do: nothing, or end the session.
`Sound` is the invariant of a session between two calls. A status changes the
limits under a running session; `Suits` says of the new limits that the
session still meets them.
-/
import Questix.LabBridge.ShootSession

namespace Questix.LabBridge

open Questix.Lib

namespace ShootSession

variable {s s' s'' : ShootSession} {client : Client} {now : ℚ}

/-! ## Blockers -/

def Clear (s : ShootSession) : Prop := ∀ code, s.blocker code = none

theorem blockers_eq_nil : s.blockers = [] ↔ s.Clear := by
  simp [blockers, Clear, List.filter_eq_nil_iff, mem_shootBlockerOrder]

/-- What a look at the blockers does not touch. -/
structure Inputs where
  config : ShootConfig
  limits : Limits
  others : List String
  subscribed : Bool
  arbiter : Option ArbiterStatus
  roller : Option (RollerStatus × ℚ)
  shot : Option (ShotStatus × ℚ)
  estopTopic : Bool
  estopKnown : Bool
  motion : Bool
  fireSeq : ℕ
  lastFireAt : Option ℚ
  fireReadyAt : Option ℚ

def inputs (s : ShootSession) : Inputs where
  config := s.config
  limits := s.limits
  others := s.others
  subscribed := s.subscribed
  arbiter := s.arbiter
  roller := s.roller
  shot := s.shot
  estopTopic := s.estopTopic
  estopKnown := s.estopKnown
  motion := s.motion
  fireSeq := s.fireSeq
  lastFireAt := s.lastFireAt
  fireReadyAt := s.fireReadyAt

/-- Who operates the launcher, how, and since when. -/
structure Run where
  owner : Option Client
  power : ℚ
  tilt : Option ℚ
  heardAt : ℚ
  startedAt : ℚ
  countAtStart : ℤ
  spinningSince : Option ℚ
  rollerConfirmedSince : Option ℚ
  session : ℕ

def run (s : ShootSession) : Run where
  owner := s.owner
  power := s.power
  tilt := s.tilt
  heardAt := s.heardAt
  startedAt := s.startedAt
  countAtStart := s.countAtStart
  spinningSince := s.spinningSince
  rollerConfirmedSince := s.rollerConfirmedSince
  session := s.session

/-- No session runs, and nothing is left of one. -/
structure Idle (s : ShootSession) : Prop where
  owner : s.owner = none
  power : s.power = 0
  tilt : s.tilt = none
  spinning : s.spinningSince = none
  confirmed : s.rollerConfirmedSince = none

/-- The session goes on without blockers, or it is over. -/
structure Settles (s s' : ShootSession) : Prop where
  inputs : s'.inputs = s.inputs
  run : s'.run = s.run ∧ (s.owner ≠ none → s.Clear → s'.Clear) ∨ Idle s'

theorem Settles.refl (s : ShootSession) : Settles s s := ⟨rfl, .inl ⟨rfl, fun _ h => h⟩⟩

theorem Idle.of_run (h : Idle s) (hrun : s'.run = s.run) : Idle s' where
  owner := (congrArg Run.owner hrun).trans h.owner
  power := (congrArg Run.power hrun).trans h.power
  tilt := (congrArg Run.tilt hrun).trans h.tilt
  spinning := (congrArg Run.spinningSince hrun).trans h.spinning
  confirmed := (congrArg Run.rollerConfirmedSince hrun).trans h.confirmed

theorem Settles.trans (h : Settles s s') (h' : Settles s' s'') : Settles s s'' where
  inputs := h'.inputs.trans h.inputs
  run := by
    rcases h'.run with ⟨hrun', hclear'⟩ | hidle
    · rcases h.run with ⟨hrun, hclear⟩ | hidle
      · have howner : s'.owner = s.owner := congrArg Run.owner hrun
        refine .inl ⟨hrun'.trans hrun, fun hdrives hs => ?_⟩
        exact hclear' (howner ▸ hdrives) (hclear hdrives hs)
      · exact .inr (hidle.of_run hrun')
    · exact .inr hidle

theorem settles_end (reason : ShootReason) (by_ : Option Client) :
    Settles s (s.end_ reason by_ now) := ⟨rfl, .inr ⟨rfl, rfl, rfl, rfl, rfl⟩⟩

theorem settles_setBlocker (code : ShootBlocker) (detail : Option Detail) :
    Settles s (s.setBlocker code detail now) := by
  unfold setBlocker
  by_cases hsame : s.blocker code = detail
  · subst hsame
    rw [if_pos rfl, Function.update_eq_self]
    exact .refl s
  · rw [if_neg hsame]
    have hclear : detail = none → s.Clear → ∀ code',
        Function.update s.blocker code detail code' = none := by
      intro hnone hclear code'
      by_cases hcode : code' = code
      · subst hcode
        simp [hnone]
      · simp [hcode, hclear code']
    dsimp only
    split
    · exact ⟨rfl, .inr ⟨rfl, rfl, rfl, rfl, rfl⟩⟩
    · rename_i hends
      have hnone : s.owner ≠ none → detail = none := by
        intro hdrives
        simpa [active, Option.isSome_iff_ne_none, hdrives] using hends
      split
      · exact ⟨rfl, .inl ⟨rfl, fun hdrives => hclear (hnone hdrives)⟩⟩
      · exact ⟨rfl, .inl ⟨rfl, fun hdrives => hclear (hnone hdrives)⟩⟩

theorem setBlocker_ends {code : ShootBlocker} {detail : Option Detail}
    (hclear : s.owner ≠ none → s.Clear) (h : (s.setBlocker code detail now).owner ≠ none) :
    detail = none := by
  by_contra hdetail
  obtain ⟨d, rfl⟩ := Option.ne_none_iff_exists'.1 hdetail
  unfold setBlocker at h
  cases howner : s.owner with
  | none =>
    dsimp only at h
    split at h
    · exact h howner
    · split at h
      · exact h rfl
      · split at h <;> exact h howner
  | some c =>
    have hbefore : s.blocker code = none := hclear (by simp [howner]) code
    simp [hbefore, active, howner, end_] at h

theorem settles_foldl (detail : ShootBlocker → Option Detail) (codes : List ShootBlocker) :
    Settles s (codes.foldl (fun s' code => s'.setBlocker code (detail code) now) s) := by
  induction codes generalizing s with
  | nil => exact .refl s
  | cons code codes ih => exact (settles_setBlocker code (detail code)).trans ih

theorem Settles.clear (h : Settles s s') (hclear : s.owner ≠ none → s.Clear) :
    s'.owner ≠ none → s'.Clear := by
  intro hdrives
  rcases h.run with ⟨hrun, hkeeps⟩ | hidle
  · have howner : s'.owner = s.owner := congrArg Run.owner hrun
    rw [howner] at hdrives
    exact hkeeps hdrives (hclear hdrives)
  · exact absurd hidle.owner hdrives

theorem Settles.owner (h : Settles s s') (hdrives : s'.owner ≠ none) : s'.run = s.run := by
  rcases h.run with ⟨hrun, -⟩ | hidle
  · exact hrun
  · exact absurd hidle.owner hdrives

theorem foldl_detail (detail : ShootBlocker → Option Detail) (codes : List ShootBlocker)
    (hclear : s.owner ≠ none → s.Clear)
    (h : (codes.foldl (fun s' code => s'.setBlocker code (detail code) now) s).owner ≠ none) :
    ∀ code ∈ codes, detail code = none := by
  induction codes generalizing s with
  | nil => simp
  | cons code codes ih =>
    have hfirst : Settles s (s.setBlocker code (detail code) now) := settles_setBlocker _ _
    have hrest : Settles (s.setBlocker code (detail code) now)
        (codes.foldl (fun s' code => s'.setBlocker code (detail code) now)
          (s.setBlocker code (detail code) now)) := settles_foldl detail codes
    have hdrives : (s.setBlocker code (detail code) now).owner ≠ none := by
      intro hnone
      exact h ((congrArg Run.owner (hrest.owner h)).trans hnone)
    intro code' hcode
    rcases List.mem_cons.1 hcode with rfl | hcode
    · exact setBlocker_ends hclear hdrives
    · exact ih (hfirst.clear hclear) h code' hcode

theorem settles_updateBlockers : Settles s (s.updateBlockers now) := settles_foldl _ _

theorem detail_updateBlockers (hclear : s.owner ≠ none → s.Clear)
    (h : (s.updateBlockers now).owner ≠ none) (code : ShootBlocker) : s.detail now code = none :=
  foldl_detail _ _ hclear h code (mem_shootBlockerOrder code)

/-! ## The invariant -/

theorem limitsOf_maxPower (arbiter : Option ArbiterStatus) (shot : Option ShotStatus) :
    0 ≤ (limitsOf arbiter shot).maxPower := le_max_left _ _

theorem limitsOf_tilt (arbiter : Option ArbiterStatus) (shot : Option ShotStatus) :
    (limitsOf arbiter shot).tiltMin ≤ (limitsOf arbiter shot).tiltMax := le_max_left _ _

/-- A session between two calls. -/
structure Sound (s : ShootSession) : Prop where
  limits : s.limits = limitsOf s.arbiter (s.shot.map Prod.fst)
  power : 0 ≤ s.power ∧ s.power ≤ s.limits.maxPower
  idle : s.owner = none → Idle s
  clear : s.owner ≠ none → s.Clear
  tilt : ∀ deg, s.tilt = some deg → s.limits.Within deg
  spinning : s.spinningSince ≠ none → s.limits.minFirePower ≤ s.power
  confirmed : s.rollerConfirmedSince ≠ none → s.spinningSince ≠ none ∧ s.turning = true

theorem Sound.of_idle (h : Idle s) (hlimits : s.limits = limitsOf s.arbiter (s.shot.map Prod.fst)) :
    Sound s where
  limits := hlimits
  power := by
    rw [h.power, hlimits]
    exact ⟨le_rfl, limitsOf_maxPower _ _⟩
  idle _ := h
  clear hdrives := absurd h.owner hdrives
  tilt deg hdeg := by simp [h.tilt] at hdeg
  spinning hspins := absurd h.spinning hspins
  confirmed hconfirmed := absurd h.confirmed hconfirmed

theorem Settles.limits (h : Settles s s')
    (hlimits : s.limits = limitsOf s.arbiter (s.shot.map Prod.fst)) :
    s'.limits = limitsOf s'.arbiter (s'.shot.map Prod.fst) := by
  have hinputs := h.inputs
  rw [show s'.limits = s.limits from congrArg Inputs.limits hinputs,
    show s'.arbiter = s.arbiter from congrArg Inputs.arbiter hinputs,
    show s'.shot = s.shot from congrArg Inputs.shot hinputs]
  exact hlimits

theorem Sound.of_same (h : Sound s) (hinputs : s'.inputs = s.inputs) (hpower : s'.power = s.power)
    (htilt : s'.tilt = s.tilt) (hspinning : s'.spinningSince = s.spinningSince)
    (hconfirmed : s'.rollerConfirmedSince = s.rollerConfirmedSince)
    (hidle : s'.owner = none → s.owner = none) (hclear : s'.owner ≠ none → s'.Clear) : Sound s' := by
  have hlimits : s'.limits = s.limits := congrArg Inputs.limits hinputs
  have harbiter : s'.arbiter = s.arbiter := congrArg Inputs.arbiter hinputs
  have hshot : s'.shot = s.shot := congrArg Inputs.shot hinputs
  have hroller : s'.roller = s.roller := congrArg Inputs.roller hinputs
  have hturning : s'.turning = s.turning := by rw [turning, turning, hroller, hlimits]
  exact
    { limits := by rw [hlimits, harbiter, hshot]; exact h.limits
      power := by rw [hpower, hlimits]; exact h.power
      idle := fun hnone =>
        have hold := h.idle (hidle hnone)
        ⟨hnone, hpower.trans hold.power, htilt.trans hold.tilt, hspinning.trans hold.spinning,
          hconfirmed.trans hold.confirmed⟩
      clear := hclear
      tilt := by rw [htilt, hlimits]; exact h.tilt
      spinning := by rw [hspinning, hlimits, hpower]; exact h.spinning
      confirmed := by rw [hconfirmed, hspinning, hturning]; exact h.confirmed }

theorem Sound.settles (h : Sound s) (hsettles : Settles s s') : Sound s' := by
  rcases hsettles.run with ⟨hrun, -⟩ | hidle
  · have howner : s'.owner = s.owner := congrArg Run.owner hrun
    exact h.of_same hsettles.inputs (congrArg Run.power hrun) (congrArg Run.tilt hrun)
      (congrArg Run.spinningSince hrun) (congrArg Run.rollerConfirmedSince hrun)
      (fun hnone => howner.symm.trans hnone) (hsettles.clear h.clear)
  · exact .of_idle hidle (hsettles.limits h.limits)

theorem sound_setPower {power : ℚ} (hlimits : s.limits = limitsOf s.arbiter (s.shot.map Prod.fst))
    (hpower : 0 ≤ power ∧ power ≤ s.limits.maxPower) (howner : s.owner ≠ none) (hclear : s.Clear)
    (htilt : ∀ deg, s.tilt = some deg → s.limits.Within deg)
    (hconfirmed : s.rollerConfirmedSince ≠ none → s.limits.minFirePower ≤ power →
      s.turning = true) : Sound (s.setPower power now) := by
  unfold setPower
  split
  · rename_i hfast
    exact
      { limits := hlimits
        power := hpower
        idle := fun hnone => absurd hnone howner
        clear := fun _ => hclear
        tilt := htilt
        spinning := fun _ => hfast
        confirmed := fun h => ⟨by simp, hconfirmed h hfast⟩ }
  · exact
      { limits := hlimits
        power := hpower
        idle := fun hnone => absurd hnone howner
        clear := fun _ => hclear
        tilt := htilt
        spinning := fun h => absurd rfl h
        confirmed := fun h => absurd rfl h }

/-! ### New limits -/

/-- The session meets the new limits: its tilt target is in the range, and a
power and a status that counted as a spin-up still do, unless the power is
narrowed below the threshold. -/
structure Suits (s : ShootSession) (limits : Limits) : Prop where
  tilt : ∀ deg, s.tilt = some deg → limits.Within deg
  spinning : s.spinningSince ≠ none → s.power ≤ limits.maxPower → limits.minFirePower ≤ s.power
  confirmed : s.rollerConfirmedSince ≠ none →
    limits.minFirePower ≤ min s.power limits.maxPower →
    showsTurning s.roller limits.minFirePower = true

instance (s : ShootSession) (limits : Limits) : Decidable (Suits s limits) :=
  decidable_of_iff ((∀ deg ∈ s.tilt, limits.Within deg) ∧
      (s.spinningSince ≠ none → s.power ≤ limits.maxPower → limits.minFirePower ≤ s.power) ∧
      (s.rollerConfirmedSince ≠ none → limits.minFirePower ≤ min s.power limits.maxPower →
        showsTurning s.roller limits.minFirePower = true))
    ⟨fun h => ⟨h.1, h.2.1, h.2.2⟩, fun h => ⟨h.tilt, h.spinning, h.confirmed⟩⟩

/-- Another input under the same session: the robot's, or the arbiter's. -/
structure Informs (s s' : ShootSession) : Prop where
  run : s'.run = s.run
  limits : s'.limits = s.limits
  blocker : s'.blocker = s.blocker
  roller : s'.roller = s.roller

/-- A sound session whose inputs have changed, under its new limits. -/
theorem sound_updateLimits (h : Sound s) (hinforms : Informs s s')
    (hsuits : Suits s (limitsOf s'.arbiter (s'.shot.map Prod.fst))) : Sound s'.updateLimits := by
  obtain ⟨hrun, hlimits, hblocker, hroller⟩ := hinforms
  have howner : s'.owner = s.owner := congrArg Run.owner hrun
  have hpower : s'.power = s.power := congrArg Run.power hrun
  have htilt : s'.tilt = s.tilt := congrArg Run.tilt hrun
  have hspinning : s'.spinningSince = s.spinningSince := congrArg Run.spinningSince hrun
  have hconfirmed : s'.rollerConfirmedSince = s.rollerConfirmedSince :=
    congrArg Run.rollerConfirmedSince hrun
  have hidle : s'.owner = none → Idle s' := fun hnone =>
    (h.idle (howner ▸ hnone)).of_run hrun
  have hclear : s'.owner ≠ none → s'.Clear := fun hdrives code => by
    rw [hblocker]
    exact h.clear (howner ▸ hdrives) code
  unfold updateLimits
  dsimp only
  split
  · rename_i hsame
    have hturning : s'.turning = s.turning := by rw [turning, turning, hroller, hlimits]
    exact
      { limits := hsame.symm
        power := by rw [hpower, hlimits]; exact h.power
        idle := hidle
        clear := hclear
        tilt := by rw [htilt, hlimits]; exact h.tilt
        spinning := by rw [hspinning, hlimits, hpower]; exact h.spinning
        confirmed := by rw [hconfirmed, hspinning, hturning]; exact h.confirmed }
  · split
    · rename_i hnarrowed
      have hdrives : s'.owner ≠ none := by
        intro hnone
        rw [(hidle hnone).power] at hnarrowed
        exact absurd hnarrowed (not_lt.2 (limitsOf_maxPower _ _))
      refine sound_setPower rfl ⟨limitsOf_maxPower _ _, le_rfl⟩ hdrives (hclear hdrives) ?_ ?_
      · intro deg hdeg
        exact hsuits.tilt deg (htilt ▸ hdeg)
      · intro hc hfast
        rw [hpower] at hnarrowed
        rw [turning]
        simp only [hroller]
        exact hsuits.confirmed (hconfirmed ▸ hc) (le_min (hfast.trans hnarrowed.le) hfast)
    · rename_i hwide
      rw [not_lt, hpower] at hwide
      exact
        { limits := rfl
          power := ⟨by simp only [hpower, h.power.1], by simpa only [hpower] using hwide⟩
          idle := fun hnone => (hidle hnone).of_run rfl
          clear := hclear
          tilt := fun deg hdeg => hsuits.tilt deg (htilt ▸ hdeg)
          spinning := by
            intro hspins
            simp only [hpower]
            exact hsuits.spinning (hspinning ▸ hspins) hwide
          confirmed := by
            intro hc
            have hspins := (h.confirmed (hconfirmed ▸ hc)).1
            refine ⟨hspinning ▸ hspins, ?_⟩
            rw [turning]
            simp only [hroller]
            refine hsuits.confirmed (hconfirmed ▸ hc) ?_
            exact le_min (hsuits.spinning hspins hwide) ((hsuits.spinning hspins hwide).trans hwide) }

/-! ### Statuses -/

theorem awaitInterval_frame (wait : Option ℚ) (now : ℚ) :
    Informs s (s.awaitInterval wait now) ∧ (s.awaitInterval wait now).shot = s.shot ∧
      (s.awaitInterval wait now).arbiter = s.arbiter := by
  unfold awaitInterval
  split
  · split <;> exact ⟨⟨rfl, rfl, rfl, rfl⟩, rfl, rfl⟩
  · exact ⟨⟨rfl, rfl, rfl, rfl⟩, rfl, rfl⟩

theorem awaitInterval_inputs (wait : Option ℚ) (now : ℚ) :
    (s.awaitInterval wait now).inputs =
      { s.inputs with fireReadyAt := (s.awaitInterval wait now).fireReadyAt } := by
  unfold awaitInterval
  split
  · split <;> rfl
  · rfl

theorem keepStatus_frame (status : Option ArbiterStatus) :
    Informs s (s.keepStatus status now) ∧ (s.keepStatus status now).shot = s.shot ∧
      (s.keepStatus status now).arbiter = status := by
  cases status with
  | none => exact ⟨⟨rfl, rfl, rfl, rfl⟩, rfl, rfl⟩
  | some status =>
    obtain ⟨hinforms, hshot, harbiter⟩ := awaitInterval_frame
      (s := { s with arbiter := some status, arbiterAt := .fin now }) status.nextFireInSec now
    exact ⟨⟨hinforms.run, hinforms.limits, hinforms.blocker, hinforms.roller⟩, hshot, harbiter⟩

theorem keepStatus_inputs (status : ArbiterStatus) :
    (s.keepStatus (some status) now).inputs =
      { s.inputs with
        arbiter := some status, fireReadyAt := (s.keepStatus (some status) now).fireReadyAt } :=
  awaitInterval_inputs _ _

/-- What a change of the power does not touch. -/
structure Base where
  owner : Option Client
  tilt : Option ℚ
  heardAt : ℚ
  startedAt : ℚ
  countAtStart : ℤ
  session : ℕ
  blocker : ShootBlocker → Option Detail

def base (s : ShootSession) : Base where
  owner := s.owner
  tilt := s.tilt
  heardAt := s.heardAt
  startedAt := s.startedAt
  countAtStart := s.countAtStart
  session := s.session
  blocker := s.blocker

theorem setPower_frame (power : ℚ) :
    (s.setPower power now).inputs = s.inputs ∧ (s.setPower power now).base = s.base := by
  unfold setPower
  split <;> exact ⟨rfl, rfl⟩

theorem updateLimits_frame :
    s.updateLimits.inputs = { s.inputs with
      limits := limitsOf s.arbiter (s.shot.map Prod.fst) } ∧ s.updateLimits.base = s.base := by
  unfold updateLimits
  dsimp only
  split
  · rename_i hsame
    exact ⟨by rw [hsame]; rfl, rfl⟩
  · split
    · exact setPower_frame _
    · exact ⟨rfl, rfl⟩

theorem updateLimits_limits :
    s.updateLimits.limits = limitsOf s.updateLimits.arbiter (s.updateLimits.shot.map Prod.fst) := by
  have hinputs := (updateLimits_frame (s := s)).1
  have hlimits : s.updateLimits.limits = limitsOf s.arbiter (s.shot.map Prod.fst) :=
    congrArg Inputs.limits hinputs
  have harbiter : s.updateLimits.arbiter = s.arbiter := congrArg Inputs.arbiter hinputs
  have hshot : s.updateLimits.shot = s.shot := congrArg Inputs.shot hinputs
  rw [hlimits, harbiter, hshot]

/-- No input blocks the launcher. -/
def stands (s : ShootSession) (now : ℚ) : Bool :=
  shootBlockerOrder.all fun code => (s.detail now code).isNone

theorem stands_eq_false (h : s.stands now = false) : ∃ code, s.detail now code ≠ none := by
  simpa [stands, mem_shootBlockerOrder, Option.ne_none_iff_isSome] using h

/-- The blockers do not look at the limits or at a reported wait. -/
theorem detail_congr
    (h : { s'.inputs with limits := s.limits, fireReadyAt := s.fireReadyAt } = s.inputs)
    (code : ShootBlocker) : s'.detail now code = s.detail now code := by
  have hconfig : s'.config = s.config := congrArg Inputs.config h
  have hothers : s'.others = s.others := congrArg Inputs.others h
  have hsubscribed : s'.subscribed = s.subscribed := congrArg Inputs.subscribed h
  have harbiter : s'.arbiter = s.arbiter := congrArg Inputs.arbiter h
  have hroller : s'.roller = s.roller := congrArg Inputs.roller h
  have hshot : s'.shot = s.shot := congrArg Inputs.shot h
  have htopic : s'.estopTopic = s.estopTopic := congrArg Inputs.estopTopic h
  have hknown : s'.estopKnown = s.estopKnown := congrArg Inputs.estopKnown h
  have hmotion : s'.motion = s.motion := congrArg Inputs.motion h
  have hrollerFresh : s'.rollerFresh now = s.rollerFresh now := by
    unfold rollerFresh freshAt
    rw [hconfig, hroller]
  have hshotFresh : s'.shotFresh now = s.shotFresh now := by
    unfold shotFresh freshAt
    rw [hconfig, hshot]
  have hestop : s'.estopParts now = s.estopParts now := by
    unfold estopParts
    rw [htopic, hrollerFresh, hshotFresh, hroller, hshot]
  have hmissing : s'.missingParts now = s.missingParts now := by
    unfold missingParts
    rw [hsubscribed, harbiter, hrollerFresh, hshotFresh, hestop, hshot]
  cases code <;>
    simp only [detail, allowed, hestop, hmissing, harbiter, hknown, hothers, hmotion]

theorem idle_updateBlockers {code : ShootBlocker} (hidle : s.owner = none → Idle s)
    (hclear : s.owner ≠ none → s.Clear) (hblocked : s.detail now code ≠ none) :
    Idle (s.updateBlockers now) := by
  have hsettles : Settles s (s.updateBlockers now) := settles_updateBlockers
  rcases hsettles.run with ⟨hrun, -⟩ | hidle'
  · by_cases hdrives : (s.updateBlockers now).owner = none
    · exact (hidle ((congrArg Run.owner hrun).symm.trans hdrives)).of_run hrun
    · exact absurd (detail_updateBlockers hclear hdrives code) hblocked
  · exact hidle'

theorem suits_of_idle (h : Idle s) (limits : Limits) : Suits s limits where
  tilt deg hdeg := by simp [h.tilt] at hdeg
  spinning hspins := absurd h.spinning hspins
  confirmed hconfirmed := absurd h.confirmed hconfirmed

theorem sound_update (h : Sound s) (hinforms : Informs s s')
    (hsuits : s.owner ≠ none → Suits s (limitsOf s'.arbiter (s'.shot.map Prod.fst))) :
    Sound (s'.updateLimits.updateBlockers now) := by
  have hlimits : Sound s'.updateLimits := by
    refine sound_updateLimits h hinforms ?_
    by_cases hdrives : s.owner = none
    · exact suits_of_idle (h.idle hdrives) _
    · exact hsuits hdrives
  exact hlimits.settles settles_updateBlockers

theorem idle_update (code : ShootBlocker) (h : Sound s) (hinforms : Informs s s')
    (hblocked : s'.updateLimits.detail now code ≠ none) :
    Idle (s'.updateLimits.updateBlockers now) := by
  have hbase : s'.updateLimits.base = s'.base := updateLimits_frame.2
  have howner : s'.updateLimits.owner = s.owner :=
    (congrArg Base.owner hbase).trans (congrArg Run.owner hinforms.run)
  have hblocker : s'.updateLimits.blocker = s.blocker :=
    (congrArg Base.blocker hbase).trans hinforms.blocker
  refine idle_updateBlockers (fun hnone => ?_) (fun hdrives code => ?_) hblocked
  · have hidle := h.idle (howner.symm.trans hnone)
    exact (sound_updateLimits h hinforms (suits_of_idle hidle _)).idle hnone
  · rw [hblocker]
    exact h.clear (howner ▸ hdrives) code

/-- The session as a status of the arbiter leaves it, before the status's own
refusal counts. -/
def heardArbiter (s : ShootSession) (status : Option ArbiterStatus) (now : ℚ) : ShootSession :=
  ((s.keepStatus status now).updateLimits).updateBlockers now

theorem heardArbiter_inputs (status : Option ArbiterStatus) :
    (s.heardArbiter status now).limits = limitsOf status (s.shot.map Prod.fst) ∧
      (s.heardArbiter status now).arbiter = status ∧
      (s.heardArbiter status now).shot = s.shot := by
  obtain ⟨-, hshot, harbiter⟩ := keepStatus_frame (s := s) status
  have hlimits := (updateLimits_frame (s := s.keepStatus status now)).1
  rw [hshot, harbiter] at hlimits
  have hsettles : Settles (s.keepStatus status now).updateLimits (s.heardArbiter status now) :=
    settles_updateBlockers
  have hinputs := hsettles.inputs.trans hlimits
  exact ⟨congrArg Inputs.limits hinputs, (congrArg Inputs.arbiter hinputs).trans harbiter,
    (congrArg Inputs.shot hinputs).trans hshot⟩

theorem heardArbiter_run (status : Option ArbiterStatus) :
    Idle (s.heardArbiter status now) ∨
      (s.heardArbiter status now).owner = s.owner ∧
        (s.heardArbiter status now).countAtStart = s.countAtStart := by
  have hbase : (s.keepStatus status now).updateLimits.base = (s.keepStatus status now).base :=
    updateLimits_frame.2
  have hrun : (s.keepStatus status now).run = s.run := (keepStatus_frame status).1.run
  have hsettles : Settles (s.keepStatus status now).updateLimits (s.heardArbiter status now) :=
    settles_updateBlockers
  rcases hsettles.run with ⟨hsame, -⟩ | hidle
  · refine .inr ⟨?_, ?_⟩
    · exact (congrArg Run.owner hsame).trans
        ((congrArg Base.owner hbase).trans (congrArg Run.owner hrun))
    · exact (congrArg Run.countAtStart hsame).trans
        ((congrArg Base.countAtStart hbase).trans (congrArg Run.countAtStart hrun))
  · exact .inl hidle

theorem sound_heardArbiter {status : Option ArbiterStatus} (h : Sound s)
    (hsuits : s.owner ≠ none → Suits s (limitsOf status (s.shot.map Prod.fst))) :
    Sound (s.heardArbiter status now) := by
  obtain ⟨hinforms, hshot, harbiter⟩ := keepStatus_frame (s := s) status
  refine sound_update h hinforms ?_
  rw [hshot, harbiter]
  exact hsuits

theorem namedIf_ne_none {names : List String} : namedIf names ≠ none ↔ names ≠ [] := by
  unfold namedIf
  split <;> simp_all

theorem setArbiter_some (status : ArbiterStatus) : s.setArbiter (some status) now =
    if (s.heardArbiter (some status) now).active then
      (s.heardArbiter (some status) now).followArbiter status now
    else s.heardArbiter (some status) now := rfl

theorem setArbiter_of_idle {status : ArbiterStatus} (h : Idle (s.heardArbiter (some status) now)) :
    s.setArbiter (some status) now = s.heardArbiter (some status) now := by
  rw [setArbiter_some, if_neg (by simp [active, h.owner])]

theorem settles_setArbiter (status : Option ArbiterStatus) :
    Settles (s.heardArbiter status now) (s.setArbiter status now) := by
  cases status with
  | none => exact .refl _
  | some status =>
    rw [setArbiter_some]
    split
    · unfold followArbiter
      split
      · exact .refl _
      · split
        · exact settles_end _ _
        · exact .refl _
    · exact .refl _

theorem setArbiter_limits (status : Option ArbiterStatus) :
    (s.setArbiter status now).limits = limitsOf status (s.shot.map Prod.fst) :=
  (congrArg Inputs.limits (settles_setArbiter status).inputs).trans (heardArbiter_inputs status).1

theorem idle_setArbiter_none (h : Sound s) : Idle (s.setArbiter none now) := by
  refine idle_update .noLauncher h (keepStatus_frame none).1 ?_
  have harbiter : (s.keepStatus none now).updateLimits.arbiter = none :=
    congrArg Inputs.arbiter (updateLimits_frame (s := s.keepStatus none now)).1
  simp [detail, namedIf_ne_none, missingParts, harbiter]

/-- The status refuses the session itself. -/
def refuses (s : ShootSession) (status : ArbiterStatus) : Bool :=
  decide (s.countAtStart < status.labCount) && decide (status.labRefusal ∈ controllerRefusals)

theorem idle_setArbiter_refused {status : ArbiterStatus} (h : Sound s)
    (hrefuses : s.refuses status = true) : Idle (s.setArbiter (some status) now) := by
  simp only [refuses, Bool.and_eq_true, decide_eq_true_eq] at hrefuses
  rcases heardArbiter_run (s := s) (some status) with hidle | ⟨howner, hsame⟩
  · rw [setArbiter_of_idle hidle]
    exact hidle
  · by_cases hdrives : s.owner = none
    · have hheard : Sound (s.heardArbiter (some status) now) :=
        sound_heardArbiter h fun hnot => absurd hdrives hnot
      have hidle := hheard.idle (howner.trans hdrives)
      rw [setArbiter_of_idle hidle]
      exact hidle
    · have hactive : (s.heardArbiter (some status) now).active = true := by
        rw [active, howner, Option.isSome_iff_ne_none]
        exact hdrives
      rw [setArbiter_some, if_pos hactive, followArbiter, if_neg, if_pos hrefuses.2]
      · exact ⟨rfl, rfl, rfl, rfl, rfl⟩
      · rw [hsame]
        exact not_le.2 hrefuses.1

theorem idle_setArbiter_blocked {status : ArbiterStatus} (h : Sound s)
    (hstands : stands { s with arbiter := some status } now = false) :
    Idle (s.setArbiter (some status) now) := by
  obtain ⟨code, hcode⟩ := stands_eq_false hstands
  have hidle : Idle (s.heardArbiter (some status) now) := by
    refine idle_update code h (keepStatus_frame _).1 ?_
    rw [detail_congr (s := { s with arbiter := some status })]
    · exact hcode
    · rw [updateLimits_frame.1, keepStatus_inputs]
      rfl
  rw [setArbiter_of_idle hidle]
  exact hidle

theorem sound_setArbiter_of_idle {status : Option ArbiterStatus}
    (hidle : Idle (s.setArbiter status now)) : Sound (s.setArbiter status now) := by
  refine .of_idle hidle ((settles_setArbiter status).limits ?_)
  obtain ⟨hlimits, harbiter, hshot⟩ := heardArbiter_inputs (s := s) status
  rw [hlimits, harbiter, hshot]

theorem sound_setArbiter {status : ArbiterStatus} (h : Sound s)
    (hsuits : s.owner ≠ none → stands { s with arbiter := some status } now = true →
      s.refuses status = false → Suits s (limitsOf (some status) (s.shot.map Prod.fst))) :
    Sound (s.setArbiter (some status) now) := by
  cases hrefuses : s.refuses status with
  | true => exact sound_setArbiter_of_idle (idle_setArbiter_refused h hrefuses)
  | false =>
    cases hstands : stands { s with arbiter := some status } now with
    | false => exact sound_setArbiter_of_idle (idle_setArbiter_blocked h hstands)
    | true =>
      refine Sound.settles ?_ (settles_setArbiter (some status))
      exact sound_heardArbiter h fun hdrives => hsuits hdrives hstands hrefuses

theorem informs_setShotStatus (status : ShotStatus) :
    Informs s { s.awaitInterval (number status.nextFireInSec) now with
      shot := some (status, now) } := by
  have hawait := (awaitInterval_frame (s := s) (number status.nextFireInSec) now).1
  exact ⟨hawait.run, hawait.limits, hawait.blocker, hawait.roller⟩

theorem setShotStatus_limits (status : ShotStatus) :
    (s.setShotStatus (some status) now).limits = limitsOf s.arbiter (some status) := by
  obtain ⟨-, -, harbiter⟩ := awaitInterval_frame (s := s) (number status.nextFireInSec) now
  have hsettles : Settles (updateLimits { s.awaitInterval (number status.nextFireInSec) now with
    shot := some (status, now) }) (s.setShotStatus (some status) now) := settles_updateBlockers
  have hinputs := congrArg Inputs.limits (hsettles.inputs.trans updateLimits_frame.1)
  rw [← harbiter]
  exact hinputs

theorem idle_setShotStatus_blocked {status : ShotStatus} (h : Sound s)
    (hstands : stands { s with shot := some (status, now) } now = false) :
    Idle (s.setShotStatus (some status) now) := by
  obtain ⟨code, hcode⟩ := stands_eq_false hstands
  refine idle_update code h (informs_setShotStatus status) ?_
  have hawait := congrArg (fun i : Inputs =>
    { i with limits := s.limits, shot := some (status, now), fireReadyAt := s.fireReadyAt })
    (awaitInterval_inputs (s := s) (number status.nextFireInSec) now)
  rw [detail_congr (s := { s with shot := some (status, now) })]
  · exact hcode
  · rw [updateLimits_frame.1]
    exact hawait

theorem sound_setShotStatus {status : ShotStatus} (h : Sound s)
    (hsuits : s.owner ≠ none → stands { s with shot := some (status, now) } now = true →
      Suits s (limitsOf s.arbiter (some status))) : Sound (s.setShotStatus (some status) now) := by
  cases hstands : stands { s with shot := some (status, now) } now with
  | false =>
    refine .of_idle (idle_setShotStatus_blocked h hstands) ?_
    exact settles_updateBlockers.limits updateLimits_limits
  | true =>
    refine sound_update h (informs_setShotStatus status) fun hdrives => ?_
    obtain ⟨-, -, harbiter⟩ := awaitInterval_frame (s := s) (number status.nextFireInSec) now
    simp only [harbiter]
    exact hsuits hdrives hstands

theorem sound_updateBlockers (h : Sound s) (hinforms : Informs s s')
    (harbiter : s'.arbiter = s.arbiter) (hshot : s'.shot = s.shot) :
    Sound (s'.updateBlockers now) := by
  have hunchanged : s'.updateLimits = s' := by
    unfold updateLimits
    rw [if_pos (by rw [hinforms.limits, harbiter, hshot, h.limits])]
  rw [← hunchanged]
  refine sound_update h hinforms fun _ => ?_
  rw [harbiter, hshot, ← h.limits]
  exact
    { tilt := h.tilt
      spinning := fun hspins _ => h.spinning hspins
      confirmed := fun hconfirmed _ => (h.confirmed hconfirmed).2 }

theorem sound_setRollerStatus (h : Sound s) (status : Option RollerStatus) :
    Sound (s.setRollerStatus status now) := by
  cases status with
  | none => exact h
  | some status =>
    refine Sound.settles ?_ settles_updateBlockers
    unfold updateRollerConfirmation
    split
    · rename_i hturning
      simp only [Bool.and_eq_true, Option.isSome_iff_ne_none] at hturning
      have hdrives : s.owner ≠ none := by
        have hactive := hturning.1.1
        simpa [active, Option.isSome_iff_ne_none] using hactive
      exact
        { limits := h.limits
          power := h.power
          idle := fun hnone => absurd hnone hdrives
          clear := h.clear
          tilt := h.tilt
          spinning := h.spinning
          confirmed := fun _ => ⟨hturning.1.2, hturning.2⟩ }
    · exact
        { limits := h.limits
          power := h.power
          idle := fun hnone => ⟨hnone, (h.idle hnone).power, (h.idle hnone).tilt,
            (h.idle hnone).spinning, rfl⟩
          clear := h.clear
          tilt := h.tilt
          spinning := h.spinning
          confirmed := fun hconfirmed => absurd rfl hconfirmed }

theorem setRollerStatus_roller (status : RollerStatus) :
    (s.setRollerStatus (some status) now).roller = some (status, now) := by
  have hsettles : Settles (updateRollerConfirmation { s with roller := some (status, now) } now)
      (s.setRollerStatus (some status) now) := settles_updateBlockers
  refine (congrArg Inputs.roller hsettles.inputs).trans ?_
  unfold updateRollerConfirmation
  split <;> rfl

theorem setRollerStatus_limits (status : Option RollerStatus) :
    (s.setRollerStatus status now).limits = s.limits := by
  cases status with
  | none => rfl
  | some status =>
    have hsettles : Settles
        (updateRollerConfirmation { s with roller := some (status, now) } now)
        (s.setRollerStatus (some status) now) := settles_updateBlockers
    refine (congrArg Inputs.limits hsettles.inputs).trans ?_
    unfold updateRollerConfirmation
    split <;> rfl

/-! ### Requests -/

theorem admit_eq_none (h : s.admit_ client now = none) :
    s.Clear ∧ (s.owner = none ∨ s.owner = some client) := by
  unfold admit_ at h
  split at h
  · cases h
  · cases hblockers : s.blockers with
    | cons code rest => simp [hblockers] at h
    | nil =>
      refine ⟨blockers_eq_nil.1 hblockers, ?_⟩
      cases howner : s.owner with
      | none => exact .inl rfl
      | some c => simpa [hblockers, howner] using h

theorem begin_owner (now : ℚ) (hfree : s.owner = none ∨ s.owner = some client) :
    (s.begin_ client now).owner = some client := by
  unfold begin_
  rcases hfree with howner | howner <;> simp [howner]

theorem begin_frame (s : ShootSession) (client : Client) (now : ℚ) :
    (s.begin_ client now).inputs = s.inputs ∧
    (s.begin_ client now).blocker = s.blocker ∧ (s.begin_ client now).power = s.power ∧
    (s.begin_ client now).tilt = s.tilt ∧ (s.begin_ client now).heardAt = now ∧
    (s.begin_ client now).spinningSince = s.spinningSince ∧
    (s.begin_ client now).rollerConfirmedSince = s.rollerConfirmedSince ∧
    (s.begin_ client now).startedAt = if s.owner = none then now else s.startedAt := by
  unfold begin_
  dsimp only
  split <;> exact ⟨rfl, rfl, rfl, rfl, rfl, rfl, rfl, rfl⟩

theorem sound_begin (h : Sound s) (hadmitted : s.admit_ client now = none) :
    Sound (s.begin_ client now) := by
  obtain ⟨hclear, hfree⟩ := admit_eq_none hadmitted
  obtain ⟨hinputs, hblocker, hpower, htilt, -, hspinning, hconfirmed, -⟩ :=
    begin_frame s client now
  refine h.of_same hinputs hpower htilt hspinning hconfirmed ?_ ?_
  · intro hnone
    rw [begin_owner now hfree] at hnone
    cases hnone
  · intro _ code
    rw [hblocker]
    exact hclear code

theorem refuseNumber_limits : (s.refuseNumber client now).limits = s.limits := by
  unfold refuseNumber
  split <;> rfl

theorem begin_limits (s : ShootSession) (client : Client) (now : ℚ) :
    (s.begin_ client now).limits = s.limits :=
  congrArg Inputs.limits (begin_frame s client now).1

theorem rollerTo_limits (power : Value) : (s.rollerTo client power now).1.limits = s.limits := by
  unfold rollerTo
  split
  · rfl
  · split
    · exact refuseNumber_limits
    · exact (congrArg Inputs.limits (setPower_frame _).1).trans (begin_limits s client now)

theorem tiltTo_limits (deg : Value) : (s.tiltTo client deg now).1.limits = s.limits := by
  unfold tiltTo
  split
  · rfl
  · split
    · exact refuseNumber_limits
    · split
      · rfl
      · exact begin_limits s client now

theorem fire_limits (confirm : Bool) : (s.fire client confirm now).1.limits = s.limits := by
  unfold fire
  split
  · rfl
  · split
    · rfl
    · split
      · rfl
      · split
        · rfl
        · split <;> rfl

theorem sound_refuseNumber (h : Sound s) : Sound (s.refuseNumber client now) := by
  unfold refuseNumber
  split
  · exact h.settles (settles_end _ _)
  · exact h

theorem sound_rollerTo (h : Sound s) (power : Value) : Sound (s.rollerTo client power now).1 := by
  unfold rollerTo
  cases hadmitted : s.admit_ client now with
  | some refused => exact h
  | none =>
    cases number power with
    | none => exact sound_refuseNumber h
    | some power =>
      have hbegun := sound_begin h hadmitted
      obtain ⟨hclear, hfree⟩ := admit_eq_none hadmitted
      have howner := begin_owner now hfree
      refine sound_setPower hbegun.limits ⟨le_max_left _ _, ?_⟩ (by simp [howner])
        (hbegun.clear (by simp [howner])) hbegun.tilt ?_
      · rw [begin_limits]
        exact max_le (h.power.1.trans h.power.2) (min_le_left _ _)
      · exact fun hconfirmed _ => (hbegun.confirmed hconfirmed).2

theorem sound_tiltTo (h : Sound s) (deg : Value) : Sound (s.tiltTo client deg now).1 := by
  unfold tiltTo
  cases hadmitted : s.admit_ client now with
  | some refused => exact h
  | none =>
    cases number deg with
    | none => exact sound_refuseNumber h
    | some deg =>
      dsimp only
      split
      · exact h
      · exact sound_begin h hadmitted

theorem tiltTo_within (h : Sound s) {value : Value} {deg : ℚ}
    (hdeg : (s.tiltTo client value now).2.2 = some deg) :
    (s.tiltTo client value now).1.limits.Within deg := by
  unfold tiltTo at hdeg ⊢
  cases hadmitted : s.admit_ client now with
  | some refused => simp [hadmitted] at hdeg
  | none =>
    cases hnumber : number value with
    | none => simp [hadmitted, hnumber] at hdeg
    | some x =>
      simp only [hadmitted, hnumber] at hdeg ⊢
      split at hdeg
      · cases hdeg
      · rename_i hstill
        rw [if_neg hstill, begin_limits, ← Option.some.inj hdeg]
        refine ⟨le_max_left _ _, max_le ?_ (min_le_left _ _)⟩
        rw [h.limits]
        exact limitsOf_tilt _ _

theorem sound_setTilt (h : Sound s) {deg : ℚ} (hdrives : s.owner ≠ none)
    (hdeg : s.limits.Within deg) : Sound (s.setTilt deg) where
  limits := h.limits
  power := h.power
  idle hnone := absurd hnone hdrives
  clear := h.clear
  tilt d hd := by
    rw [← Option.some.inj hd]
    exact hdeg
  spinning := h.spinning
  confirmed := h.confirmed

theorem sound_fire (h : Sound s) (confirm : Bool) : Sound (s.fire client confirm now).1 := by
  unfold fire
  cases s.admit_ client now with
  | some refused => exact h
  | none =>
    dsimp only
    split
    · exact h
    · split
      · exact h
      · split
        · exact h
        · split
          · exact h
          · exact
              { limits := h.limits
                power := h.power
                idle := fun hnone => ⟨hnone, (h.idle hnone).power, (h.idle hnone).tilt,
                  (h.idle hnone).spinning, (h.idle hnone).confirmed⟩
                clear := h.clear
                tilt := h.tilt
                spinning := h.spinning
                confirmed := h.confirmed }

/-! ### Ticks -/

theorem settles_expire : Settles s (s.expire now) := by
  unfold expire
  split
  · exact settles_end _ _
  · split
    · exact settles_end _ _
    · exact .refl s

theorem expire_active (h : (s.expire now).owner ≠ none) : s.expire now = s ∧
    ¬ s.config.deadmanSec < .fin (now - s.heardAt) ∧
    ¬ s.config.maxSpinSec < .fin (now - s.startedAt) := by
  unfold expire at h ⊢
  split at h
  · exact absurd rfl h
  · split at h
    · exact absurd rfl h
    · rename_i hheard hyoung
      have hactive : s.active = true := by simpa [active, Option.isSome_iff_ne_none] using h
      simp only [hactive, Bool.true_and, decide_eq_true_eq] at hheard hyoung
      simp [hheard, hyoung]

theorem forgetArbiter_cases (h : Sound s) (timeout : Option Dbl) :
    s.forgetArbiter timeout now = s ∨
      Idle (s.forgetArbiter timeout now) ∧ Sound (s.forgetArbiter timeout now) := by
  unfold forgetArbiter
  split
  · split
    · exact .inr ⟨idle_setArbiter_none h, sound_setArbiter_of_idle (idle_setArbiter_none h)⟩
    · exact .inl rfl
  · exact .inl rfl

theorem sound_tick (h : Sound s) (timeout : Option Dbl) : Sound (s.tick timeout now).1 := by
  have hforgotten : Sound (s.forgetArbiter timeout now) := by
    rcases forgetArbiter_cases h timeout with hsame | ⟨-, hsound⟩
    · rw [hsame]
      exact h
    · exact hsound
  exact (hforgotten.settles settles_updateBlockers).settles settles_expire

theorem tick_limits (h : Sound s) (timeout : Option Dbl)
    (hdrives : (s.tick timeout now).1.owner ≠ none) : (s.tick timeout now).1.limits = s.limits := by
  have hsettles : Settles (s.forgetArbiter timeout now) (s.tick timeout now).1 :=
    settles_updateBlockers.trans settles_expire
  rcases forgetArbiter_cases h timeout with hsame | ⟨hidle, -⟩
  · rw [hsame] at hsettles
    exact congrArg Inputs.limits hsettles.inputs
  · exact absurd (hidle.of_run (hsettles.owner hdrives)).owner hdrives

/-- A session that survives a tick is as it was, not blocked, heard of and not
too old. -/
theorem tick_active (h : Sound s) (timeout : Option Dbl)
    (hdrives : (s.tick timeout now).1.owner ≠ none) :
    (s.tick timeout now).1.run = s.run ∧ (s.tick timeout now).1.stands now = true ∧
      ¬ s.config.deadmanSec < .fin (now - s.heardAt) ∧
      ¬ s.config.maxSpinSec < .fin (now - s.startedAt) := by
  obtain ⟨hsame, hheard, hyoung⟩ := expire_active hdrives
  have hsettles : Settles (s.forgetArbiter timeout now)
      ((s.forgetArbiter timeout now).updateBlockers now) := settles_updateBlockers
  have htick : (s.tick timeout now).1 = (s.forgetArbiter timeout now).updateBlockers now := hsame
  rw [htick] at hdrives ⊢
  have hrun := hsettles.owner hdrives
  rcases forgetArbiter_cases h timeout with hkept | ⟨hidle, -⟩
  · rw [hkept] at hrun hheard hyoung hdrives hsettles ⊢
    have hconfig : (s.updateBlockers now).config = s.config :=
      congrArg Inputs.config hsettles.inputs
    have hheardAt : (s.updateBlockers now).heardAt = s.heardAt := congrArg Run.heardAt hrun
    have hstartedAt : (s.updateBlockers now).startedAt = s.startedAt := congrArg Run.startedAt hrun
    rw [hconfig, hheardAt] at hheard
    rw [hconfig, hstartedAt] at hyoung
    refine ⟨hrun, ?_, hheard, hyoung⟩
    rw [stands, List.all_eq_true]
    intro code _
    have hsameInputs : { (s.updateBlockers now).inputs with
        limits := s.limits, fireReadyAt := s.fireReadyAt } = s.inputs := by
      rw [hsettles.inputs]
      rfl
    rw [detail_congr hsameInputs, detail_updateBlockers h.clear hdrives code]
    rfl
  · exact absurd (hidle.of_run hrun).owner hdrives

theorem sound_create (config : ShootConfig) : Sound (create config) := by
  refine Sound.settles ?_ settles_updateBlockers
  exact .of_idle ⟨rfl, rfl, rfl, rfl, rfl⟩ (by simp [limitsOf, defaultLimits]; norm_num)

end ShootSession

end Questix.LabBridge

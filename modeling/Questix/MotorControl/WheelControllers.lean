/-
Questix.MotorControl.WheelControllers — the observer and the outer controller
of one wheel: `wheel_observer.hpp` and `wheel_velocity_lqr.hpp`.

Parameters come as doubles of any kind (`Params`); `sanitize` makes numbers
within their bounds of them (`SafeParams`), and everything after it is exact
arithmetic over these. So the checks of the source for a number that is not
finite are gone behind `sanitize`, and so is the `sanitize` that `computeGains`
repeats on parameters that went through it.
-/
import Mathlib.Data.Fin.Tuple.Basic
import Mathlib.Tactic.NormNum
import Questix.Lib.DblArith
import Questix.MotorControl.DdtCurrentPi

namespace Questix.MotorControl

open Questix.Lib

/-! ## Sanitizing -/

/-- A double, or the default where it is not finite. -/
def finiteOr (x : Dbl) (fallback : ℚ) : ℚ :=
  match x with
  | .fin q => q
  | _ => fallback

/-- A positive double, or the default. -/
def positiveOr (x : Dbl) (fallback : ℚ) : ℚ :=
  if 0 < finiteOr x 0 then finiteOr x 0 else fallback

def nonnegOrZero (x : Dbl) : ℚ := max 0 (finiteOr x 0)

theorem positiveOr_pos {x : Dbl} {fallback : ℚ} (h : 0 < fallback) : 0 < positiveOr x fallback := by
  unfold positiveOr
  split_ifs with hx
  · exact hx
  · exact h

theorem clamp_mem (v : ℚ) {lo hi : ℚ} (h : lo ≤ hi) :
    lo ≤ DdtCurrentPi.clamp v lo hi ∧ DdtCurrentPi.clamp v lo hi ≤ hi := by
  unfold DdtCurrentPi.clamp
  split_ifs with hlo hhi
  · exact ⟨le_rfl, h⟩
  · exact ⟨h, le_rfl⟩
  · exact ⟨not_lt.1 hlo, not_lt.1 hhi⟩

/-! ## The outer controller -/

namespace WheelVelocityLqr

structure Params where
  a : Dbl := 0
  b : Dbl := 0
  q : Dbl := 0
  r : Dbl := 1
  leadGain : Dbl := 0
  disturbanceGain : Dbl := 0
  maxCorrectionRpm : Dbl := 0

/-- Parameters that went through `sanitize`. -/
structure SafeParams where
  a : ℚ
  b : ℚ
  q : ℚ
  r : ℚ
  leadGain : ℚ
  disturbanceGain : ℚ
  maxCorrectionRpm : ℚ
  a_bounds : 0 ≤ a ∧ a ≤ 999 / 1000
  b_pos : 0 < b
  q_nonneg : 0 ≤ q
  r_pos : 0 < r
  lead_bounds : 0 ≤ leadGain ∧ leadGain ≤ 1
  disturbance_bounds : 0 ≤ disturbanceGain ∧ disturbanceGain ≤ 1
  max_nonneg : 0 ≤ maxCorrectionRpm

def sanitize (p : Params) : SafeParams where
  a := DdtCurrentPi.clamp (finiteOr p.a 0) 0 (999 / 1000)
  b := positiveOr p.b (1 - DdtCurrentPi.clamp (finiteOr p.a 0) 0 (999 / 1000))
  q := nonnegOrZero p.q
  r := positiveOr p.r 1
  leadGain := DdtCurrentPi.clamp (finiteOr p.leadGain 0) 0 1
  disturbanceGain := DdtCurrentPi.clamp (finiteOr p.disturbanceGain 0) 0 1
  maxCorrectionRpm := nonnegOrZero p.maxCorrectionRpm
  a_bounds := clamp_mem _ (by norm_num)
  b_pos := by
    have hbounds := clamp_mem (finiteOr p.a 0) (show (0 : ℚ) ≤ 999 / 1000 by norm_num)
    exact positiveOr_pos (by linarith)
  q_nonneg := le_max_left ..
  r_pos := positiveOr_pos one_pos
  lead_bounds := clamp_mem _ zero_le_one
  disturbance_bounds := clamp_mem _ zero_le_one
  max_nonneg := le_max_left ..

structure Gains where
  k : ℚ := 0
  p : ℚ := 0
  deriving DecidableEq

structure State where
  hasPrevRef : Bool := false
  prevRef : ℚ := 0
  deriving DecidableEq

/-- The right side of the Riccati equation. -/
def riccati (p : SafeParams) (P : ℚ) : ℚ :=
  p.q + p.a * p.a * P - (p.a * p.b * P) * (p.a * p.b * P) / (p.r + p.b * p.b * P)

/-- `n` more iterations of the Riccati equation; `none` where it does not
converge. -/
def iterateGains (p : SafeParams) (tol : ℚ) : ℕ → ℚ → Option Gains
  | 0, _ => none
  | n + 1, P =>
    if |riccati p P - P| < tol * max 1 |P| then
      let P := riccati p P
      some { k := p.a * p.b * P / (p.r + p.b * p.b * P), p := P }
    else iterateGains p tol n (riccati p P)

def computeGains (p : SafeParams) : Option Gains :=
  if p.q ≤ 0 then some {} else iterateGains p (1 / 10 ^ 12) 10000 p.q

/-- `computeGains` with its arguments. -/
def computeGainsWithin (params : Params) (maxIter : ℤ) (tol : ℚ) : Option Gains :=
  let p := sanitize params
  if p.q ≤ 0 then some {} else iterateGains p tol maxIter.toNat p.q

/-- The correction of one tick, before its limit; `dref` is the change of the
reference. -/
def correction (p : SafeParams) (gains : Gains) (dref ref xHat dHat : ℚ) : ℚ :=
  p.leadGain * dref / p.b - p.disturbanceGain * dHat / p.b - gains.k * (xHat - ref)

/-- The reference with the limited correction. -/
def corrected (p : SafeParams) (gains : Gains) (dref ref xHat dHat : ℚ) : ℚ :=
  ref + DdtCurrentPi.clamp (correction p gains dref ref xHat dHat) (-p.maxCorrectionRpm)
    p.maxCorrectionRpm

def step (s : State) (p : SafeParams) (gains : Gains) (ref xHat dHat : ℚ) : State × ℚ :=
  let dref := if s.hasPrevRef then ref - s.prevRef else 0
  ({ hasPrevRef := true, prevRef := ref }, corrected p gains dref ref xHat dHat)

end WheelVelocityLqr

/-! ## The observer -/

namespace WheelObserver

def kMaxDelayTicks : ℕ := 4

structure Params where
  a : Dbl := 0
  b : Dbl := 1
  lX : Dbl := .fin (1 / 2)
  lD : Dbl := 0
  delayTicks : ℤ := 0

/-- Parameters that went through `sanitize`. -/
structure SafeParams where
  a : ℚ
  b : ℚ
  lX : ℚ
  lD : ℚ
  delayTicks : Fin (kMaxDelayTicks + 1)
  a_bounds : 0 ≤ a ∧ a ≤ 999 / 1000
  lX_bounds : 0 ≤ lX ∧ lX ≤ 1
  lD_nonneg : 0 ≤ lD

def sanitize (p : Params) : SafeParams where
  a := DdtCurrentPi.clamp (finiteOr p.a 0) 0 (999 / 1000)
  b :=
    if finiteOr p.b 0 = 0 then 1 - DdtCurrentPi.clamp (finiteOr p.a 0) 0 (999 / 1000)
    else finiteOr p.b 0
  lX := DdtCurrentPi.clamp (finiteOr p.lX 1) 0 1
  lD := nonnegOrZero p.lD
  delayTicks := Fin.ofNat _ (DdtCurrentPi.clamp p.delayTicks 0 kMaxDelayTicks).toNat
  a_bounds := clamp_mem _ (by norm_num)
  lX_bounds := clamp_mem _ zero_le_one
  lD_nonneg := le_max_left ..

structure State where
  initialized : Bool := false
  xHat : ℚ := 0
  xPrior : ℚ := 0
  dHat : ℚ := 0
  lastInnovation : ℚ := 0
  /-- The last inputs, the newest first. -/
  uHist : Fin (kMaxDelayTicks + 1) → ℚ := fun _ => 0

/-- Start from a measurement. -/
def reset (measured : ℚ) : State := { initialized := true, xHat := measured, xPrior := measured }

def step (s : State) (p : SafeParams) (measured input : ℚ) : State :=
  let s := if s.initialized then s else reset measured
  let e := measured - s.xPrior
  let xHat := s.xPrior + p.lX * e
  let dHat := s.dHat + p.lD * e
  let uHist : Fin (kMaxDelayTicks + 1) → ℚ := Fin.cons input fun i => s.uHist i.castSucc
  { s with
    lastInnovation := e
    xHat := xHat
    dHat := dHat
    uHist := uHist
    xPrior := p.a * xHat + p.b * uHist p.delayTicks + dHat }

end WheelObserver

end Questix.MotorControl

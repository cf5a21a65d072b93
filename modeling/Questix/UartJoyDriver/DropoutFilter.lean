/-
Questix.UartJoyDriver.DropoutFilter — `dropout_filter.cpp`: the last active
value of an axis or a button is held until enough neutral frames confirm the
release.

The vectors `filtered_*` and `*_release_counts` of the source have one size at
all times; here they are one list of channels, so they cannot differ in size.
The loop over the axes and the loop over the buttons are the same loop
(`holdChannel`), over another idea of what is active.

Proofs live in `DropoutTheorems`.
-/
import Questix.UartJoyDriver.JoyLineParser

namespace Questix.UartJoyDriver

open Questix.Lib

/-- What is kept of one axis or button. -/
structure Channel (α : Type) where
  filtered : α
  releaseCount : ℤ := 0
  deriving DecidableEq

structure DropoutConfig where
  holdAxisThreshold : Dbl := .fin (1 / 10)
  axisReleaseConfirmFrames : ℤ := 2
  buttonReleaseConfirmFrames : ℤ := 2

structure DropoutFilter where
  config : DropoutConfig := {}
  axes : List (Channel Dbl) := []
  buttons : List (Channel ℤ) := []

namespace DropoutFilter

section Loop

variable {α : Type}

/-- One round of the loop, for a raw value. -/
def holdChannel (active : α → Bool) (released : α) (releaseFrames : ℤ) (raw : α)
    (c : Channel α) : Channel α :=
  if active raw then { filtered := raw }
  else if active c.filtered then
    if c.releaseCount + 1 ≥ releaseFrames then { filtered := released }
    else { c with releaseCount := c.releaseCount + 1 }
  else { filtered := released }

/-- The channels for a message of another size start anew. -/
def sized (released : α) (size : ℕ) (cs : List (Channel α)) : List (Channel α) :=
  if cs.length ≠ size then List.replicate size { filtered := released } else cs

/-- The loop over the raw values of a message. -/
def holdChannels (active : α → Bool) (released : α) (confirmFrames : ℤ) (raws : List α)
    (cs : List (Channel α)) : List (Channel α) :=
  List.zipWith (holdChannel active released (max 1 confirmFrames)) raws
    (sized released raws.length cs)

end Loop

def axisActive (f : DropoutFilter) (rawAxis : Dbl) : Bool :=
  f.config.holdAxisThreshold ≤ rawAxis.abs

def buttonPressed (button : ℤ) : Bool := button = 1

def configure (config : DropoutConfig) (f : DropoutFilter) : DropoutFilter :=
  { f with config := config }

def apply (f : DropoutFilter) (joyMsg : Joy) : DropoutFilter × Joy :=
  let axes := holdChannels f.axisActive 0 f.config.axisReleaseConfirmFrames joyMsg.axes f.axes
  let buttons := holdChannels buttonPressed 0 f.config.buttonReleaseConfirmFrames joyMsg.buttons
    f.buttons
  ({ f with axes := axes, buttons := buttons },
    { joyMsg with axes := axes.map Channel.filtered, buttons := buttons.map Channel.filtered })

def reset (axisCount buttonCount : ℕ) (f : DropoutFilter) : DropoutFilter :=
  { f with
    axes := List.replicate axisCount { filtered := 0 }
    buttons := List.replicate buttonCount { filtered := 0 } }

end DropoutFilter

end Questix.UartJoyDriver

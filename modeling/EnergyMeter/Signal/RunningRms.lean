import EnergyMeter.Log
import EnergyMeter.Sampling.SampleQueue
import EnergyMeter.Signal.RollingWindow

/-!
# Running RMS

The root of the mean square over a rolling window, times the ratio of the line quantity to
the converter's pin. The root is taken cold once, when the window fills; from then on one
Newton step from the previous estimate follows each sample.

Roots are integers, found by Newton's method. A cold root starts from the value itself, halved
until it has sixteen bits, and runs enough steps to settle. A warm root refines a nearby
estimate by as many steps as asked.
-/
namespace EnergyMeter

namespace SquareRoot

def coldSteps : Nat := 25

/-- The leading sixteen bits of a value, the seed of a cold root. -/
def coldSeed (value : Nat) : Nat := value >>> (value.log2 - 15)

def newtonStep (value estimate : Nat) : Nat := (value / estimate + estimate) / 2

/-- The given number of Newton steps; an estimate of zero ends them with zero. -/
def newton (value : Nat) : Nat → Nat → Nat
  | 0, estimate => estimate
  | steps + 1, estimate =>
    if estimate = 0 then 0 else newton value steps (newtonStep value estimate)

/-- The seed that an estimate stands for; zero asks for a cold one. -/
def seedOf (estimate : UInt16) (value : UInt32) : Nat :=
  if estimate = 0 then coldSeed value.toNat else estimate.toNat

/-- The number of steps that a request stands for; zero asks for those of a cold root. -/
def stepsOf (steps : UInt8) : Nat := if steps = 0 then coldSteps else steps.toNat

/-- The root of a value, refined from an estimate by the given number of steps. -/
def refine (estimate : UInt16) (value : UInt32) (steps : UInt8) : UInt32 :=
  UInt32.ofNatClamp (newton value.toNat (stepsOf steps) (seedOf estimate value))

/-- The root of a value from a cold start. -/
def cold (value : UInt32) : UInt32 := refine 0 value 0

/-- One step from the previous root, enough when the value has changed little. -/
def warm (estimate : UInt16) (value : UInt32) : UInt32 := refine estimate value 1

end SquareRoot

/-- The running RMS of one channel over a window of `capacity` samples. -/
structure RunningRms (capacity : Nat) where
  /-- The squares of the last samples in the working format. -/
  window : RollingWindow capacity := .empty
  /-- The root of the mean before the ratio, zero until the window fills. -/
  estimate : UInt16 := 0
  /-- Line quantity for each unit at the pin. -/
  ratio : UInt32
  deriving DecidableEq, Repr

namespace RunningRms

variable {capacity : Nat}

def ofRatio (ratio : UInt32) : RunningRms capacity := { ratio }

/-- The published RMS: the estimate times the ratio, at most a full word. -/
def rms (r : RunningRms capacity) : UInt16 :=
  UInt16.ofNatClamp (r.estimate.toNat * r.ratio.toNat)

def meanSquare (window : RollingWindow capacity) : UInt32 := window.mean.getD 0

/-- Adds a raw sample. The record of a cold root is left once, by the sample that fills
the window. -/
def push (r : RunningRms capacity) (raw : Int16) : Noted (RunningRms capacity) :=
  let window := r.window.push (scaledSquare raw)
  match r.window.fill, window.fill with
  | .filling, .filling => { value := { r with window } }
  | .filling, .steady =>
    let root := SquareRoot.cold (meanSquare window)
    { value := { r with window, estimate := UInt16.ofNatClamp root.toNat }
      log := [.windowFull root] }
  | .steady, _ =>
    let root := SquareRoot.warm r.estimate (meanSquare window)
    { value := { r with window, estimate := UInt16.ofNatClamp root.toNat } }

def describe (r : RunningRms capacity) : String :=
  Text.closedRecord "RmsEstimator"
    [Text.field "window" r.window.describe, Text.field "estimate" (toString r.estimate.toNat),
      Text.field "ratio" (toString r.ratio.toNat)]

end RunningRms

end EnergyMeter

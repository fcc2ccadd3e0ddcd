import EnergyMeter.Log
import EnergyMeter.Timing.NominalPeriod

/-!
# The frequency loop

The loop counts voltage samples between zero crossings and moves the frequency offset by
one step when a half-cycle came out too long or too short. A move unlocks the loop: the
next crossing only starts a new count. At a bound the loop stays locked.
-/
namespace EnergyMeter

/-- Whether a zero crossing was seen since the loop started or last moved. -/
inductive Phase where
  | unlocked
  | locked
  deriving DecidableEq, Repr

namespace Phase

def text : Phase → String
  | unlocked => "Unlocked"
  | locked => "Locked"

end Phase

structure FrequencyLoop where
  /-- Samples between two crossings of a half-cycle of the right length. -/
  expected : UInt8
  offset : UInt8
  phase : Phase := .unlocked
  /-- Samples since the last crossing; they count only while locked. -/
  ticks : UInt8 := 0
  previous : Int16 := 0
  deriving DecidableEq, Repr

namespace FrequencyLoop

/-- An unlocked loop for a cycle of so many samples. An offset above the largest is taken
as the largest. -/
def start (cycleLength offset : UInt8) : FrequencyLoop where
  expected := UInt8.ofNat (cycleLength.toNat / 2 - 1)
  offset := max DesignPoint.offsetMin (min offset DesignPoint.offsetMax)

def crosses (before after : Int16) : Bool := before.toInt * after.toInt < 0

/-- The offset that a half-cycle of so many ticks asks for: one step towards the mains
unless the length is right or the offset is at that bound. -/
def moved? (loop : FrequencyLoop) : Option UInt8 :=
  if loop.expected < loop.ticks then
    if loop.offset < DesignPoint.offsetMax then some (loop.offset + 1) else none
  else if loop.ticks < loop.expected then
    if DesignPoint.offsetMin < loop.offset then some (loop.offset - 1) else none
  else none

/-- Takes one voltage sample. The offset is reported when it moved. -/
def observe (loop : FrequencyLoop) (sample : Int16) : Noted (FrequencyLoop × Option UInt8) :=
  let seen := { loop with previous := sample }
  match loop.phase, crosses loop.previous sample with
  | .unlocked, true => { value := ({ seen with phase := .locked }, none) }
  | .unlocked, false => { value := (seen, none) }
  | .locked, false =>
    { value := ({ seen with ticks := UInt8.ofNatClamp (loop.ticks.toNat + 1) }, none) }
  | .locked, true =>
    match loop.moved? with
    | none => { value := ({ seen with ticks := 0 }, none) }
    | some offset =>
      { value := ({ seen with ticks := 0, offset, phase := .unlocked }, some offset)
        log := [.offsetMoved loop.ticks loop.expected loop.offset offset] }

def period (loop : FrequencyLoop) : UInt32 := MainsOffset.period loop.offset

def describe (loop : FrequencyLoop) : String :=
  Text.closedRecord "FrequencyTracker"
    [Text.field "expected_ticks" (toString loop.expected.toNat),
      Text.field "offset" (toString loop.offset.toNat),
      Text.field "state" loop.phase.text,
      Text.field "ticks" (toString loop.ticks.toNat),
      Text.field "previous" (toString loop.previous.toInt)]

end FrequencyLoop

end EnergyMeter

import EnergyMeter.Log
import EnergyMeter.Sampling.Converter
import EnergyMeter.Sampling.SampleQueue

/-!
# The intake

The interrupt side of the meter. On every interrupt the intake reads one voltage and one
current and posts the pair to the queues of both channels. It never waits for a consumer:
a full queue loses the pair, which counts as an overrun.
-/
namespace EnergyMeter

/-- The converter and the pairs lost so far. -/
structure Intake where
  converter : Converter := {}
  overruns : UInt32 := 0
  deriving DecidableEq, Repr

structure Interrupt where
  result : Except Fault Sample
  intake : Intake
  queues : SampleQueues

namespace Intake

def onto (converter : Converter) : Intake := { converter }

/-- Reads an input to the end of its conversion. -/
def read (intake : Intake) (input : AnalogInput) : Noted (Except Fault Int16 × Intake) :=
  match intake.converter.convert input with
  | (.ok raw, converter) => { value := (.ok raw, { intake with converter }) }
  | (.error code, converter) =>
    { value := (.error (.conversion input), { intake with converter })
      log := [.conversionFailed input code] }

/-- Offers a pair to the queue of a channel. The count of overruns stays at the largest
word. -/
def offer (input : AnalogInput) (sample : Sample) (queue : SampleQueue) (overruns : UInt32) :
    Noted (SampleQueue × UInt32) :=
  match queue.send? sample with
  | some queue => { value := (queue, overruns) }
  | none =>
    { value := (queue, UInt32.ofNatClamp (overruns.toNat + 1)), log := [.pairDropped input] }

/-- Posts a pair to the voltage channel, then to the current channel. -/
def post (intake : Intake) (queues : SampleQueues) (sample : Sample) :
    Noted (Intake × SampleQueues) :=
  let first := offer .voltage sample queues.voltage intake.overruns
  let second := offer .current sample queues.current first.value.2
  { value :=
      ({ intake with overruns := second.value.2 },
        { queues with voltage := first.value.1, current := second.value.1 })
    log := first.log ++ second.log }

/-- Handles one interrupt: the voltage is read, then the current, and the pair is posted. A
conversion that fails ends the interrupt, and nothing is posted. -/
def interrupt (intake : Intake) (queues : SampleQueues) : Noted Interrupt :=
  let first := intake.read .voltage
  match first.value with
  | (.error fault, intake) => { value := ⟨.error fault, intake, queues⟩, log := first.log }
  | (.ok voltage, intake) =>
    let second := intake.read .current
    match second.value with
    | (.error fault, intake) =>
      { value := ⟨.error fault, intake, queues⟩, log := first.log ++ second.log }
    | (.ok current, intake) =>
      let sample := { voltage, current }
      let posted := intake.post queues sample
      { value := ⟨.ok sample, posted.value.1, posted.value.2⟩
        log := first.log ++ second.log ++ posted.log }

def describe (intake : Intake) : String :=
  Text.openRecord "Acquisition"
    [Text.field "adc" intake.converter.describe,
      Text.field "overruns" (toString intake.overruns.toNat)]

end Intake

end EnergyMeter

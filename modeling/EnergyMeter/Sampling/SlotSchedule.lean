import EnergyMeter.Sampling.InterruptSlot

/-!
# Schedules of an interrupt slot

What a program does with an interrupt slot, as a list of steps: it installs intakes, lets the
timer tick and takes samples out of the queues. It reaches the slot by calls, with queues that it
keeps itself, or as one of the globals of a meter. The same steps also drive an intake by hand,
with no slot in between.
-/
namespace EnergyMeter

inductive SlotStep where
  /-- Installs a fresh intake onto a converter. -/
  | setUp (converter : Converter)
  | appendScript (script : List Conversion)
  | tick
  | receive (consumer : Consumer)
  deriving DecidableEq, Repr

inductive SlotAnswer where
  | done
  | ticked (result : Option (Except Fault Sample))
  | received (sample : Option Sample)

/-- Takes the oldest sample out of a queue, if one waits. -/
def SampleQueues.take (queues : SampleQueues) (consumer : Consumer) :
    Option Sample × SampleQueues :=
  match queues.receive? consumer with
  | none => (none, queues)
  | some (sample, rest) => (some sample, rest)

/-- A way to reach the slot: how an intake is installed, and what a tick does. -/
structure SlotAccess where
  setUp : MeterGlobals → Converter → MeterGlobals
  tick : MeterGlobals → Noted (Option (Except Fault Sample) × MeterGlobals)

namespace SlotAccess

/-- Calls on the slot, with queues that the caller keeps. -/
def byCall : SlotAccess where
  setUp globals converter := { globals with slot := globals.slot.install converter }
  tick globals :=
    let ticked := globals.slot.tick globals.queues
    { value := (ticked.value.result, ⟨ticked.value.slot, ticked.value.queues⟩)
      log := ticked.log }

/-- The slot and the queues as the globals of a meter. -/
def asGlobals : SlotAccess where
  setUp := MeterGlobals.setUp
  tick := MeterGlobals.tick

def step (access : SlotAccess) (globals : MeterGlobals) :
    SlotStep → Noted SlotAnswer × MeterGlobals
  | .setUp converter => ({ value := .done }, access.setUp globals converter)
  | .appendScript script =>
    ({ value := .done }, { globals with slot := globals.slot.appendScript script })
  | .tick =>
    let ticked := access.tick globals
    ({ value := .ticked ticked.value.1, log := ticked.log }, ticked.value.2)
  | .receive consumer =>
    let (sample, queues) := globals.queues.take consumer
    ({ value := .received sample }, { globals with queues })

/-- Every answer of a list of steps, and the globals that it leaves. -/
def run (access : SlotAccess) (globals : MeterGlobals) :
    List SlotStep → List (Noted SlotAnswer) × MeterGlobals
  | [] => ([], globals)
  | first :: rest =>
    let (answer, globals) := access.step globals first
    let (answers, globals) := access.run globals rest
    (answer :: answers, globals)

end SlotAccess

/-- An intake that is interrupted by hand, with the queues it posts to. -/
structure BareIntake where
  intake : Intake
  queues : SampleQueues
  deriving DecidableEq, Repr

namespace BareIntake

def step (bare : BareIntake) : SlotStep → Noted SlotAnswer × BareIntake
  | .setUp converter => ({ value := .done }, { bare with intake := .onto converter })
  | .appendScript script =>
    let converter := bare.intake.converter.append script
    ({ value := .done }, { bare with intake := { bare.intake with converter } })
  | .tick =>
    let handled := bare.intake.interrupt bare.queues
    ({ value := .ticked (some handled.value.result), log := handled.log },
      ⟨handled.value.intake, handled.value.queues⟩)
  | .receive consumer =>
    let (sample, queues) := bare.queues.take consumer
    ({ value := .received sample }, { bare with queues })

def run (bare : BareIntake) : List SlotStep → List (Noted SlotAnswer) × BareIntake
  | [] => ([], bare)
  | first :: rest =>
    let (answer, bare) := bare.step first
    let (answers, bare) := bare.run rest
    (answer :: answers, bare)

/-- The globals of a meter whose slot holds this intake. -/
def installed (bare : BareIntake) : MeterGlobals := ⟨⟨some bare.intake⟩, bare.queues⟩

end BareIntake

end EnergyMeter
